import Mtl.Foundation.History
import Mtl.Socket.WaitOwners

/-! The books on the owners of waits: their `wait_id_`s against the watchers, the drainers against the
client calls in progress, the copies against their tasks, and what each client was told. -/
namespace Mtl.Socket
open Foundation Tasks Waiter

/-! ## What clients are told -/

/-- The `Start` that an event belongs to. -/
def ClientEvent.startNo : ClientEvent → Option StartNo
  | .started _ n | .read _ n _ | .onDataAvailable _ n _ | .readEnd _ n | .onDataComplete _ n => some n
  | .destroyed _ => none

/-- The bytes that `Start` number `n` of the drainer `d` read, oldest first. -/
def bytesRead (d : DrainerPtr) (n : StartNo) : List ClientEvent → List UInt8
  | [] => []
  | .read d' n' bytes :: log => if d' = d ∧ n' = n then bytesRead d n log ++ bytes else bytesRead d n log
  | _ :: log => bytesRead d n log

/-- The bytes that its client was given. -/
def bytesAvailable (d : DrainerPtr) (n : StartNo) : List ClientEvent → List UInt8
  | [] => []
  | .onDataAvailable d' n' bytes :: log =>
    if d' = d ∧ n' = n then bytesAvailable d n log ++ bytes else bytesAvailable d n log
  | _ :: log => bytesAvailable d n log

/-- `Start` number `n` of the drainer `d` has begun, and neither it nor the drainer has come to an end. -/
structure Underway (d : DrainerPtr) (n : StartNo) (past : List ClientEvent) : Prop where
  begun : .started d n ∈ past
  reading : .readEnd d n ∉ past
  alive : .destroyed d ∉ past

/-- What an event finds before it: reads are made while the drainer drains, a client is called right
after the read that it is told of, and nothing of a drainer comes after its destruction. -/
def Orderly : ClientEvent → List ClientEvent → Prop
  | .started d n, past => .destroyed d ∉ past ∧ ∀ e ∈ past, e.startNo ≠ some n
  | .read d n _, past | .readEnd d n, past => Underway d n past
  | .onDataAvailable d n bytes, past => past.head? = some (.read d n bytes)
  | .onDataComplete d n, past => past.head? = some (.readEnd d n)
  | .destroyed d, past => .destroyed d ∉ past

/-! ## The books -/

/-- Each live drainer in `OnDataAvailable` has one call in progress that it is to mark. -/
structure DrainerBooks (drainers : Finmap fun _ : DrainerPtr => SocketDrainer) (next : DrainerPtr)
    (calls : List UserCall) : Prop where
  fresh : ∀ d, next ≤ d → drainers.lookup d = none
  inClient : ∀ d, calls.count (.onDataAvailable d false) =
    if (drainers.lookup d).map SocketDrainer.destructionSentinel = some true then 1 else 0
  reading : ∀ d drainer, drainers.lookup d = some drainer → drainer.destructionSentinel = true → drainer.waitId = 0
  sourced : ∀ d drainer, drainers.lookup d = some drainer → drainer.destructionSentinel = true ∨ drainer.waitId ≠ 0 →
    drainer.source ≠ 0

/-- The clients were told of what was read. A drainer drains when it waits, is in its client, or is
`inHand`. -/
structure StreamBooks (inHand : Option DrainerPtr) (drainers : Finmap fun _ : DrainerPtr => SocketDrainer)
    (next : DrainerPtr) (startOf : DrainerPtr → StartNo) (nextStart : StartNo) (clients : List ClientEvent) : Prop where
  orderly : EveryPast Orderly clients
  told : ∀ d n, bytesAvailable d n clients = bytesRead d n clients
  ended : ∀ d n, clients.count (.onDataComplete d n) = clients.count (.readEnd d n)
  once : ∀ d n, clients.count (.readEnd d n) ≤ 1
  alive : ∀ d, drainers.lookup d ≠ none ∨ next ≤ d → .destroyed d ∉ clients
  numbered : ∀ e ∈ clients, ∀ n, e.startNo = some n → 0 < n ∧ n < nextStart
  unstarted : ∀ d, next ≤ d → startOf d = 0
  begun : ∀ d, startOf d ≠ 0 → .started d (startOf d) ∈ clients
  first : 0 < nextStart
  draining : ∀ d drainer, drainers.lookup d = some drainer →
    ((drainer.waitId ≠ 0 ∨ drainer.destructionSentinel = true ∨ inHand = some d) ↔
      (startOf d ≠ 0 ∧ .readEnd d (startOf d) ∉ clients))

/-- The tasks of one copy. -/
def tasksOf (c : CopyId) (posted : List CopyTask) : Nat := posted.countP fun task => task.copy = some c

theorem tasksOf_cons (c : CopyId) (task : CopyTask) (posted : List CopyTask) :
    tasksOf c (task :: posted) = tasksOf c posted + if task.copy = some c then 1 else 0 := by
  rw [tasksOf, List.countP_cons]
  simp [tasksOf]

/-- A live copy has at most one way to go on. -/
structure CopyBooks (copies : Finmap fun _ : CopyId => Copy) (next : CopyId) (posted : List CopyTask) : Prop where
  fresh : ∀ c, next ≤ c → copies.lookup c = none
  waiting : ∀ c copy, copies.lookup c = some copy → (copy.handler.waiting = true ↔ copy.waitId ≠ 0)
  socket : ∀ c copy, copies.lookup c = some copy → copy.waitId ≠ 0 → copy.socket ≠ 0
  one : ∀ c, tasksOf c posted + (if (copies.lookup c).map (fun copy => copy.handler.waiting) = some true then 1 else 0) ≤
    if copies.lookup c = none then 0 else 1
  fills : ∀ c copy, .fillBuffer c ∈ posted → copies.lookup c = some copy → copy.handler.kind = .fromFile

/-- `wait_id_` of each live owner. -/
def waitIds (drainers : Finmap fun _ : DrainerPtr => SocketDrainer) (copies : Finmap fun _ : CopyId => Copy) :
    Owner → Option WaitId
  | .drainer d => (drainers.lookup d).map SocketDrainer.waitId
  | .copy c => (copies.lookup c).map Copy.waitId

structure WaitBooks (inHand : Option DrainerPtr) (s : Owners) : Prop where
  attended : Attended s.waiter (waitIds s.drainers s.copies)
  ledger : Ledger s.waiter.watchers s.waiter.nextWatcher s.waits
  turn : CallbackTurn s.dispatching s.waiter.loop
  drainers : DrainerBooks s.drainers s.nextDrainer s.calls
  streams : StreamBooks inHand s.drainers s.nextDrainer s.startOf s.nextStart s.clients
  copies : CopyBooks s.copies s.nextCopy s.posted

section WaitIds
variable {drainers : Finmap fun _ : DrainerPtr => SocketDrainer} {copies : Finmap fun _ : CopyId => Copy}

theorem waitIds_insert_drainer (d : DrainerPtr) (drainer : SocketDrainer) :
    waitIds (drainers.insert d drainer) copies =
      Function.update (waitIds drainers copies) (.drainer d) (some drainer.waitId) := by
  funext owner
  cases owner with
  | drainer d' =>
    simp only [waitIds, lookup_insert_eq, Function.update_apply, Owner.drainer.injEq]
    split_ifs <;> rfl
  | copy c => simp [waitIds]

theorem waitIds_erase_drainer (d : DrainerPtr) :
    waitIds (drainers.erase d) copies = Function.update (waitIds drainers copies) (.drainer d) none := by
  funext owner
  cases owner with
  | drainer d' =>
    simp only [waitIds, lookup_erase_eq, Function.update_apply, Owner.drainer.injEq]
    split_ifs <;> rfl
  | copy c => simp [waitIds]

theorem waitIds_insert_copy (c : CopyId) (copy : Copy) :
    waitIds drainers (copies.insert c copy) =
      Function.update (waitIds drainers copies) (.copy c) (some copy.waitId) := by
  funext owner
  cases owner with
  | drainer d => simp [waitIds]
  | copy c' =>
    simp only [waitIds, lookup_insert_eq, Function.update_apply, Owner.copy.injEq]
    split_ifs <;> rfl

theorem waitIds_erase_copy (c : CopyId) :
    waitIds drainers (copies.erase c) = Function.update (waitIds drainers copies) (.copy c) none := by
  funext owner
  cases owner with
  | drainer d => simp [waitIds]
  | copy c' =>
    simp only [waitIds, lookup_erase_eq, Function.update_apply, Owner.copy.injEq]
    split_ifs <;> rfl

theorem waitIds_drainer {d : DrainerPtr} {drainer : SocketDrainer} (hd : drainers.lookup d = some drainer) :
    waitIds drainers copies (.drainer d) = some drainer.waitId := by
  rw [waitIds, hd, Option.map_some]

theorem waitIds_copy {c : CopyId} {copy : Copy} (hc : copies.lookup c = some copy) :
    waitIds drainers copies (.copy c) = some copy.waitId := by
  rw [waitIds, hc, Option.map_some]

/-- A drainer that keeps its `wait_id_`. -/
theorem waitIds_same {d : DrainerPtr} {drainer : SocketDrainer} (hd : drainers.lookup d = some drainer)
    (drainer' : SocketDrainer) (hw : drainer'.waitId = drainer.waitId) :
    waitIds (drainers.insert d drainer') copies = waitIds drainers copies := by
  rw [waitIds_insert_drainer, hw, ← waitIds_drainer hd]
  exact Function.update_eq_self _ _

end WaitIds

namespace DrainerBooks
variable {drainers : Finmap fun _ : DrainerPtr => SocketDrainer} {next d : DrainerPtr} {calls : List UserCall}
  {drainer drainer' : SocketDrainer}

theorem init : DrainerBooks ∅ 0 [] := by
  constructor <;> simp

theorem born (h : DrainerBooks drainers next calls) (hd : drainers.lookup d = some drainer) : d < next := by
  by_contra hle
  rw [h.fresh d (Nat.le_of_not_lt hle)] at hd
  cases hd

theorem create (h : DrainerBooks drainers next calls) : DrainerBooks (drainers.insert next {}) (next + 1) calls := by
  have hnew := h.fresh next (Nat.le_refl _)
  obtain ⟨h1, h2, h3, h4⟩ := h
  refine ⟨?_, ?_, ?_, ?_⟩
  all_goals simp only [lookup_insert_eq]
  all_goals grind

/-- Outside of its client a drainer starts, waits, or is told that its wait is complete. -/
theorem update (h : DrainerBooks drainers next calls) (hd : drainers.lookup d = some drainer)
    (hc : drainer.destructionSentinel = false) (hc' : drainer'.destructionSentinel = false)
    (hs : drainer'.waitId ≠ 0 → drainer'.source ≠ 0) : DrainerBooks (drainers.insert d drainer') next calls := by
  obtain ⟨h1, h2, h3, h4⟩ := h
  refine ⟨?_, ?_, ?_, ?_⟩
  all_goals simp only [lookup_insert_eq]
  all_goals grind

/-- `OnDataAvailable` is called. -/
theorem enter (h : DrainerBooks drainers next calls) (hd : drainers.lookup d = some drainer)
    (hc : drainer.destructionSentinel = false) (hw : drainer.waitId = 0) (hs : drainer.source ≠ 0) :
    DrainerBooks (drainers.insert d { drainer with destructionSentinel := true }) next
      (.onDataAvailable d false :: calls) := by
  obtain ⟨h1, h2, h3, h4⟩ := h
  refine ⟨?_, ?_, ?_, ?_⟩
  all_goals simp only [lookup_insert_eq, List.count_cons]
  all_goals grind

/-- `OnDataAvailable` returns and the drainer is still there. -/
theorem leave (h : DrainerBooks drainers next (.onDataAvailable d false :: calls)) :
    ∃ drainer, drainers.lookup d = some drainer ∧ drainer.waitId = 0 ∧ drainer.destructionSentinel = true ∧
      drainer.source ≠ 0 ∧
      DrainerBooks (drainers.insert d { drainer with destructionSentinel := false }) next calls := by
  obtain ⟨h1, h2, h3, h4⟩ := h
  have hcount := h2 d
  rw [List.count_cons_self] at hcount
  split_ifs at hcount with hsent
  obtain ⟨drainer, hd, hc⟩ := Option.map_eq_some_iff.mp hsent
  refine ⟨drainer, hd, h3 d drainer hd hc, hc, h4 d drainer hd (.inl hc), ?_, ?_, ?_, ?_⟩
  all_goals simp only [lookup_insert_eq, List.count_cons] at *
  all_goals grind

/-- Any other user code, on its way in and out. -/
theorem other_iff {call : UserCall} (hcall : ∀ d, call ≠ .onDataAvailable d false) :
    DrainerBooks drainers next (call :: calls) ↔ DrainerBooks drainers next calls := by
  have hcount (d : DrainerPtr) :
      (call :: calls).count (.onDataAvailable d false) = calls.count (.onDataAvailable d false) :=
    List.count_cons_of_ne (hcall d)
  constructor
  · rintro ⟨h1, h2, h3, h4⟩
    exact ⟨h1, fun d => by rw [← h2 d, hcount], h3, h4⟩
  · rintro ⟨h1, h2, h3, h4⟩
    exact ⟨h1, fun d => by rw [← h2 d, hcount], h3, h4⟩

/-- A destroyed drainer marks its own client call and no other. -/
theorem count_marked (d d' : DrainerPtr) (calls : List UserCall) :
    (calls.map (UserCall.destroyed d)).count (.onDataAvailable d' false) =
      if d' = d then 0 else calls.count (.onDataAvailable d' false) := by
  induction calls with
  | nil => simp
  | cons call calls ih =>
    rw [List.map_cons, List.count_cons, List.count_cons, ih]
    cases call with
    | onDataAvailable d'' isDestroyed =>
      simp only [UserCall.destroyed]
      grind
    | onDataComplete | callback | other => simp [UserCall.destroyed]

theorem destroy (h : DrainerBooks drainers next calls) (hd : drainers.lookup d = some drainer) :
    DrainerBooks (drainers.erase d) next
      (if drainer.destructionSentinel then calls.map (UserCall.destroyed d) else calls) := by
  have hcount := fun d' => count_marked d d' calls
  obtain ⟨h1, h2, h3, h4⟩ := h
  refine ⟨?_, ?_, ?_, ?_⟩
  all_goals simp only [lookup_erase_eq]
  all_goals grind

end DrainerBooks

namespace StreamBooks
variable {inHand : Option DrainerPtr} {drainers : Finmap fun _ : DrainerPtr => SocketDrainer} {next d : DrainerPtr}
  {startOf : DrainerPtr → StartNo} {nextStart : StartNo} {clients : List ClientEvent} {drainer drainer' : SocketDrainer}

theorem init : StreamBooks none ∅ 0 (fun _ => 0) 1 [] := by
  constructor
  case orderly => exact everyPast_nil
  all_goals simp [bytesAvailable, bytesRead]

theorem create (h : StreamBooks inHand drainers next startOf nextStart clients) (hhand : inHand ≠ some next) :
    StreamBooks inHand (drainers.insert next {}) (next + 1) startOf nextStart clients := by
  obtain ⟨h1, h2, h3, h4, h5, h6, h7, h8, h9, h10⟩ := h
  refine ⟨h1, h2, h3, h4, ?_, h6, fun d hd => h7 d (Nat.le_of_succ_le hd), h8, h9, ?_⟩
  all_goals simp only [lookup_insert_eq]
  all_goals grind

/-- A drainer comes to hand or gets out of it without a word to its client. -/
theorem move (h : StreamBooks inHand drainers next startOf nextStart clients) (hd : drainers.lookup d = some drainer)
    {inHand' : Option DrainerPtr} (hother : ∀ d', d' ≠ d → (inHand' = some d' ↔ inHand = some d'))
    (hsame : (drainer'.waitId ≠ 0 ∨ drainer'.destructionSentinel = true ∨ inHand' = some d) ↔
      (drainer.waitId ≠ 0 ∨ drainer.destructionSentinel = true ∨ inHand = some d)) :
    StreamBooks inHand' (drainers.insert d drainer') next startOf nextStart clients := by
  obtain ⟨h1, h2, h3, h4, h5, h6, h7, h8, h9, h10⟩ := h
  refine ⟨h1, h2, h3, h4, fun d' hd' => h5 d' ?_, h6, h7, h8, h9, fun d' drainer'' hd' => ?_⟩
  · rw [lookup_insert_eq] at hd'
    split_ifs at hd' with heq
    · rw [heq, hd]
      exact .inl (by simp)
    · exact hd'
  · rw [lookup_insert_eq] at hd'
    split_ifs at hd' with heq
    · obtain rfl := Option.some.inj hd'
      rw [heq, hsame]
      exact h10 d drainer hd
    · rw [hother d' heq]
      exact h10 d' drainer'' hd'

/-- `Start`, of a drainer that does not drain. -/
theorem start (h : StreamBooks none drainers next startOf nextStart clients) (hd : drainers.lookup d = some drainer)
    (hfresh : ∀ d, next ≤ d → drainers.lookup d = none) (hw : drainer'.waitId = 0)
    (hc : drainer'.destructionSentinel = false) :
    StreamBooks (some d) (drainers.insert d drainer') next (Function.update startOf d nextStart) (nextStart + 1)
      (.started d nextStart :: clients) := by
  have hlive := h.alive d (.inl (by simp [hd]))
  have hnew : ∀ e ∈ clients, e.startNo ≠ some nextStart := fun e he hn => Nat.lt_irrefl _ (h.numbered e he _ hn).2
  have hunended (d' : DrainerPtr) : .readEnd d' nextStart ∉ clients := fun he => hnew _ he rfl
  obtain ⟨h1, h2, h3, h4, h5, h6, h7, h8, h9, h10⟩ := h
  refine ⟨everyPast_cons.mpr ⟨⟨hlive, hnew⟩, h1⟩, h2, ?_, ?_, ?_, ?_, ?_, ?_, Nat.succ_pos _, ?_⟩
  · simpa using h3
  · simpa using h4
  all_goals simp only [lookup_insert_eq, Function.update_apply, List.mem_cons]
  all_goals grind [ClientEvent.startNo]

/-- What a read in hand finds of its own `Start`. -/
theorem inHand_underway (h : StreamBooks (some d) drainers next startOf nextStart clients)
    (hd : drainers.lookup d = some drainer) : Underway d (startOf d) clients := by
  obtain ⟨hstart, hend⟩ := (h.draining d drainer hd).mp (.inr (.inr rfl))
  exact ⟨h.begun d hstart, hend, h.alive d (.inl (by simp [hd]))⟩

/-- A chunk is read and handed to the client. -/
theorem chunk (h : StreamBooks (some d) drainers next startOf nextStart clients) (hd : drainers.lookup d = some drainer)
    (hc : drainer'.destructionSentinel = true) (bytes : List UInt8) :
    StreamBooks none (drainers.insert d drainer') next startOf nextStart
      (.onDataAvailable d (startOf d) bytes :: .read d (startOf d) bytes :: clients) := by
  have hunderway := h.inHand_underway hd
  have hnumber := h.numbered _ hunderway.begun (startOf d) rfl
  obtain ⟨h1, h2, h3, h4, h5, h6, h7, h8, h9, h10⟩ := h
  refine ⟨everyPast_cons.mpr ⟨rfl, everyPast_cons.mpr ⟨hunderway, h1⟩⟩, fun d' n => ?_, ?_, ?_, ?_, ?_, h7, ?_, h9, ?_⟩
  · simp only [bytesAvailable, bytesRead, h2 d' n]
  · simpa using h3
  · simpa using h4
  all_goals simp only [lookup_insert_eq, List.mem_cons]
  all_goals grind [ClientEvent.startNo]

/-- The end of the stream is read and the client is told. -/
theorem complete (h : StreamBooks (some d) drainers next startOf nextStart clients)
    (hd : drainers.lookup d = some drainer) (hw : drainer.waitId = 0) (hc : drainer.destructionSentinel = false) :
    StreamBooks none drainers next startOf nextStart
      (.onDataComplete d (startOf d) :: .readEnd d (startOf d) :: clients) := by
  have hunderway := h.inHand_underway hd
  have hnumber := h.numbered _ hunderway.begun (startOf d) rfl
  have hzero := List.count_eq_zero.mpr hunderway.reading
  obtain ⟨h1, h2, h3, h4, h5, h6, h7, h8, h9, h10⟩ := h
  refine ⟨everyPast_cons.mpr ⟨rfl, everyPast_cons.mpr ⟨hunderway, h1⟩⟩, ?_, ?_, ?_, ?_, ?_, h7, ?_, h9, ?_⟩
  · simpa only [bytesAvailable, bytesRead] using h2
  all_goals simp only [List.count_cons, List.mem_cons]
  all_goals grind [ClientEvent.startNo]

theorem destroy (h : StreamBooks none drainers next startOf nextStart clients) (hd : drainers.lookup d = some drainer)
    (hborn : d < next) : StreamBooks none (drainers.erase d) next startOf nextStart (.destroyed d :: clients) := by
  have hlive := h.alive d (.inl (by simp [hd]))
  obtain ⟨h1, h2, h3, h4, h5, h6, h7, h8, h9, h10⟩ := h
  refine ⟨everyPast_cons.mpr ⟨hlive, h1⟩, ?_, ?_, ?_, ?_, ?_, h7, ?_, h9, ?_⟩
  · simpa only [bytesAvailable, bytesRead] using h2
  · simpa using h3
  · simpa using h4
  all_goals simp only [lookup_erase_eq, List.mem_cons]
  all_goals grind [ClientEvent.startNo]

end StreamBooks

namespace CopyBooks
variable {copies : Finmap fun _ : CopyId => Copy} {next c : CopyId} {posted : List CopyTask} {copy copy' : Copy}

theorem init : CopyBooks ∅ 0 [] := by
  constructor <;> simp [tasksOf]

theorem born (h : CopyBooks copies next posted) (hc : copies.lookup c = some copy) : c < next := by
  by_contra hle
  rw [h.fresh c (Nat.le_of_not_lt hle)] at hc
  cases hc

/-- A copy goes on with a task. -/
theorem post (h : CopyBooks copies next posted) (hc : c < next) (hnone : tasksOf c posted = 0) {task : CopyTask}
    (htask : task.copy = some c) (hw : copy'.handler.waiting = false) (hid : copy'.waitId = 0)
    (hkind : task = .fillBuffer c → copy'.handler.kind = .fromFile) (hfill : .fillBuffer c ∉ posted) :
    CopyBooks (copies.insert c copy') next (task :: posted) := by
  obtain ⟨h1, h2, h3, h4, h5⟩ := h
  refine ⟨?_, ?_, ?_, fun c' => ?_, ?_⟩
  case refine_4 =>
    have hold := h4 c'
    rw [tasksOf_cons, htask, lookup_insert_eq]
    grind
  all_goals simp only [lookup_insert_eq, List.mem_cons]
  all_goals grind [CopyTask.copy]

/-- A copy goes on with a wait, or is about to do something else than what it did. -/
theorem wait (h : CopyBooks copies next posted) (hc : c < next) (hnone : tasksOf c posted = 0)
    (hw : copy'.handler.waiting = true ↔ copy'.waitId ≠ 0) (hs : copy'.waitId ≠ 0 → copy'.socket ≠ 0)
    (hfill : .fillBuffer c ∉ posted) : CopyBooks (copies.insert c copy') next posted := by
  obtain ⟨h1, h2, h3, h4, h5⟩ := h
  refine ⟨?_, ?_, ?_, fun c' => ?_, ?_⟩
  case refine_4 =>
    have hold := h4 c'
    simp only [lookup_insert_eq]
    grind
  all_goals simp only [lookup_insert_eq]
  all_goals grind

/-- A copy ends. -/
theorem finish (h : CopyBooks copies next posted) (hnone : tasksOf c posted = 0) :
    CopyBooks (copies.erase c) next posted := by
  obtain ⟨h1, h2, h3, h4, h5⟩ := h
  refine ⟨?_, ?_, ?_, fun c' => ?_, ?_⟩
  case refine_4 =>
    have hold := h4 c'
    simp only [lookup_erase_eq]
    grind
  all_goals simp only [lookup_erase_eq]
  all_goals grind

theorem filled_none (hnone : tasksOf c posted = 0) : .fillBuffer c ∉ posted := by
  intro hmem
  exact absurd (List.countP_eq_zero.mp hnone _ hmem) (by simp [CopyTask.copy])

end CopyBooks

end Mtl.Socket
