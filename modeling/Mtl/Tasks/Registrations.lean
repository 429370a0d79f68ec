import Mtl.Foundation.History
import Mtl.Tasks.CallEvents
import Mtl.Tasks.HandlerRegistry

/-! Callbacks against the abstract set of active registrations, read off the history. -/
namespace Mtl.Tasks
open Foundation

/-- The keys `AddHandler` returned, the last one first. -/
def addedKeys (log : List Event) : List HandlerKey :=
  log.filterMap fun
    | .added key _ => some key
    | _ => none

/-- The registrations of a history, newest event first: entered, and neither
removed since nor ended by an error. -/
def active : List Event → Finset HandlerKey
  | [] => ∅
  | .added key true :: log => insert key (active log)
  | .removed key :: log => (active log).erase key
  | .finished key status :: log => if status = .ok then active log else (active log).erase key
  | _ :: log => active log

/-- Some `AddHandler` that registered returned `key`, `RemoveHandler(key)` was not called since
and no `OnHandleError` for it completed. -/
def Active (log : List Event) (key : HandlerKey) : Prop :=
  ∃ later earlier, log = later ++ .added key true :: earlier ∧ .removed key ∉ later ∧
    ∀ status, status ≠ .ok → .finished key status ∉ later

theorem active_cons (e : Event) (log : List Event) (key : HandlerKey) :
    Active (e :: log) key ↔ e = .added key true ∨
      (Active log key ∧ e ≠ .removed key ∧ ∀ status, status ≠ .ok → e ≠ .finished key status) := by
  constructor
  · rintro ⟨later, earlier, heq, hrem, hfin⟩
    cases later with
    | nil =>
      cases heq
      exact .inl rfl
    | cons e' later =>
      cases heq
      simp only [List.mem_cons, not_or] at hrem hfin
      exact .inr ⟨⟨later, earlier, rfl, hrem.2, fun st h => (hfin st h).2⟩,
        fun h => hrem.1 h.symm, fun st h he => (hfin st h).1 he.symm⟩
  · rintro (rfl | ⟨⟨later, earlier, rfl, hrem, hfin⟩, h1, h2⟩)
    · exact ⟨[], log, rfl, by simp, by simp⟩
    · refine ⟨e :: later, earlier, rfl, ?_, ?_⟩
      · simpa [hrem] using h1.symm
      · intro st hst
        simpa [hfin st hst] using (h2 st hst).symm

theorem finished_ne_iff (k key : HandlerKey) (status : MxStatus) :
    (∀ st, st ≠ .ok → Event.finished k status ≠ .finished key st) ↔ (k = key → status = .ok) := by
  constructor
  · rintro h rfl
    by_contra hs
    exact h status hs rfl
  · intro h st hst he
    cases he
    exact hst (h rfl)

theorem mem_active_iff (log : List Event) (key : HandlerKey) : key ∈ active log ↔ Active log key := by
  induction log with
  | nil => simp [active, Active]
  | cons e log ih =>
    rw [active_cons, ← ih]
    cases e with
    | added k b => cases b <;> simp [active, eq_comm]
    | removed k => simp [active, and_comm, eq_comm]
    | finished k st =>
      by_cases hst : st = .ok
      · simp [active, hst]
        grind
      · simp [active, hst]
        grind
    | queried | started | deleted => simp [active]

/-- Every callback in the history started in a past that satisfies `P`. -/
def EveryStart (P : List Event → HandlerKey → Prop) (log : List Event) : Prop :=
  ∀ later r key status earlier, log = later ++ .started r key status :: earlier → P earlier key

theorem everyStart_iff {P : List Event → HandlerKey → Prop} {log : List Event} :
    EveryStart P log ↔ EveryPast (fun e past => ∀ r key status, e = .started r key status → P past key) log := by
  constructor
  · rintro h later e earlier rfl r key status rfl
    exact h later r key status earlier rfl
  · intro h later r key status earlier he
    exact h later _ earlier he r key status rfl

theorem everyStart_cons {P : List Event → HandlerKey → Prop} {e : Event} {log : List Event} :
    EveryStart P (e :: log) ↔
      (∀ r key status, e = .started r key status → P log key) ∧ EveryStart P log := by
  rw [everyStart_iff, everyPast_cons, ← everyStart_iff]

/-- A registration that may be called: active, and without an error so far. -/
def Callable (log : List Event) (key : HandlerKey) : Prop :=
  Active log key ∧ ∀ r status, status ≠ .ok → .started r key status ∉ log

/-- A key is called for an error at most in the last callback that started for it. -/
theorem status_of_lastStart {log : List Event} (h : EveryStart Callable log) {r r' : RecordPtr}
    {key : HandlerKey} {status status' : MxStatus} (hl : lastStart log = some (r, key, status))
    (hmem : .started r' key status' ∈ log) (hs : status' ≠ .ok) : status' = status := by
  induction log with
  | nil => simp at hmem
  | cons e log ih =>
    rw [everyStart_cons] at h
    cases e with
    | started r₀ key₀ status₀ =>
      simp only [lastStart, Option.some.injEq, Prod.mk.injEq] at hl
      obtain ⟨rfl, rfl, rfl⟩ := hl
      rcases List.mem_cons.mp hmem with he | hmem
      · cases he
        rfl
      · exact absurd hmem ((h.1 _ _ _ rfl).2 r' status' hs)
    | added | removed | queried | finished | deleted =>
      exact ih h.2 hl (by simpa using hmem)

/-- The abstract set simulated by `handlers_`, and what the history says of keys and callbacks. -/
structure Traced (n : Nat) (s : MessageLoop) : Prop where
  active_iff : ∀ key, s.handlers.lookup key ≠ none ↔ Active s.log key
  keys : addedKeys s.log = (List.range n).reverse.map fun i => UInt64.ofNat (i + 1)
  callable : EveryStart Callable s.log
  started_added : ∀ r key status, .started r key status ∈ s.log → key ∈ addedKeys s.log
  failed : ∀ r key status, status ≠ .ok → .started r key status ∈ s.log →
    ¬ Active s.log key ∨
      (s.currentHandler = some r ∧ (s.records.lookup r).map HandlerRecord.key = some key)

theorem Active.mem_addedKeys {log : List Event} {key : HandlerKey} (h : Active log key) :
    key ∈ addedKeys log := by
  obtain ⟨later, earlier, rfl, -⟩ := h
  simp [addedKeys]

theorem addedKeys_cons (e : Event) (log : List Event) :
    addedKeys (e :: log) =
      match e with
      | .added key _ => key :: addedKeys log
      | _ => addedKeys log := by
  cases e <;> rfl

namespace Traced
variable {A : MxStatus → Prop} {n c : Nat} {s t : MessageLoop}

theorem mem_keys (h : Traced n s) (hn : n < 2^64) {key : HandlerKey} :
    key ∈ addedKeys s.log ↔ 0 < key.toNat ∧ key.toNat ≤ n := by
  rw [h.keys]
  simp only [List.mem_map, List.mem_reverse, List.mem_range]
  constructor
  · rintro ⟨i, hi, rfl⟩
    rw [UInt64.toNat_ofNat_of_lt' (show _ < 2^64 by omega)]
    omega
  · rintro ⟨hpos, hle⟩
    exact ⟨key.toNat - 1, by omega, by rw [Nat.sub_add_cancel hpos, UInt64.ofNat_toNat]⟩

theorem init : Traced 0 {} := by
  refine ⟨fun key => ?_, rfl, ?_, by simp, by simp⟩
  · rw [← mem_active_iff]
    simp [active]
  · intro later r key st earlier h
    simp at h

/-- One effect: `handlers_` and the abstract set change together. -/
theorem effect (hreg : Registry n s) (hn : KeysLast (n + c) s) (he : Effect A c s t)
    (h : Traced n s) : Traced (n + c) t := by
  have hmem := h.mem_keys
  obtain ⟨h1, h2, h3, h4, h5⟩ := h
  have hkeys : s.nextHandlerKey :: addedKeys s.log =
      (List.range (n + 1)).reverse.map (fun i => UInt64.ofNat (i + 1)) := by
    rw [h2, List.range_succ, List.reverse_append, hreg.next]
    rfl
  cases he with
  | registered req hs =>
    have hn : n + 1 < 2^64 := hn.resolve_left (by simp [hs])
    have hfresh := hreg.record_unused
    have hnew : s.nextHandlerKey ∉ addedKeys s.log := by
      rw [hmem (by omega), hreg.next, UInt64.toNat_ofNat_of_lt' hn]
      omega
    refine ⟨?_, hkeys, ?_, ?_, ?_⟩
    all_goals simp only [MessageLoop.registered, active_cons, everyStart_cons, addedKeys_cons]
    all_goals grind
  | refused =>
    refine ⟨?_, hkeys, ?_, ?_, ?_⟩
    all_goals simp only [MessageLoop.refused, active_cons, everyStart_cons, addedKeys_cons]
    all_goals grind
  | absent =>
    refine ⟨?_, h2, ?_, ?_, ?_⟩
    all_goals simp only [MessageLoop.note, active_cons, everyStart_cons, addedKeys_cons]
    all_goals grind
  | deferred hk hc =>
    refine ⟨?_, h2, ?_, ?_, ?_⟩
    all_goals simp only [MessageLoop.deferred, active_cons, everyStart_cons, addedKeys_cons]
    all_goals grind
  | cancelled hk hc =>
    refine ⟨?_, h2, ?_, ?_, ?_⟩
    all_goals simp only [MessageLoop.cancelled, active_cons, everyStart_cons, addedKeys_cons]
    all_goals grind
  | queried =>
    refine ⟨?_, h2, ?_, ?_, ?_⟩
    all_goals simp only [MessageLoop.note, active_cons, everyStart_cons, addedKeys_cons]
    all_goals grind
  | entered _ hc hr hk =>
    have hact := (h1 _).mp (by rw [hk]; simp)
    have hkey := hact.mem_addedKeys
    refine ⟨?_, h2, ?_, ?_, ?_⟩
    all_goals simp only [MessageLoop.entered, active_cons, everyStart_cons, addedKeys_cons, Callable]
    all_goals grind
  | rearmed hc hr hl hrem =>
    have hlast := fun r' st' => @status_of_lastStart _ h3 _ r' _ _ st' hl
    refine ⟨?_, h2, ?_, ?_, ?_⟩
    all_goals simp only [MessageLoop.rearmed, active_cons, finished_ne_iff, everyStart_cons, addedKeys_cons]
    all_goals grind
  | ended hc hr hl hrem =>
    have hlast := fun r' st' => @status_of_lastStart _ h3 _ r' _ _ st' hl
    have hgone := fun hrem => hreg.removed_key hrem hc hr
    refine ⟨?_, h2, ?_, ?_, ?_⟩
    all_goals simp only [MessageLoop.ended, active_cons, finished_ne_iff, everyStart_cons, addedKeys_cons]
    all_goals grind
  | shutdown => exact ⟨h1, h2, h3, h4, h5⟩

theorem effects {m : Nat} (hreg : Registry n s) (hn : KeysLast (n + m) s) (he : Effects A m s t)
    (h : Traced n s) : Traced (n + m) t :=
  Registry.effects_keep (P := Traced) (fun _ _ _ _ hreg hn he h => effect hreg hn he h) he hreg hn h

theorem nodup_keys (h : Traced n s) (hn : n < 2^64) : (addedKeys s.log).Nodup := by
  rw [h.keys]
  refine (List.nodup_reverse.mpr List.nodup_range).map_on ?_
  intro i hi j hj heq
  simp only [List.mem_reverse, List.mem_range] at hi hj
  have := congrArg UInt64.toNat heq
  rw [UInt64.toNat_ofNat_of_lt' (show _ < 2^64 by omega),
    UInt64.toNat_ofNat_of_lt' (show _ < 2^64 by omega)] at this
  omega

end Traced

theorem addedKeys_append (log log' : List Event) :
    addedKeys (log ++ log') = addedKeys log ++ addedKeys log' :=
  List.filterMap_append

/-- What makes a registration active again after a removal is a later addition. -/
theorem Active.added_after_removed {later earlier : List Event} {key : HandlerKey}
    (h : Active (later ++ .removed key :: earlier) key) : .added key true ∈ later := by
  obtain ⟨later', earlier', heq, hrem, -⟩ := h
  rcases List.append_eq_append_iff.mp heq with ⟨as, rfl, has⟩ | ⟨as, rfl, has⟩
  · cases as with
    | nil => cases has
    | cons e as =>
      cases has
      simp at hrem
  · cases as with
    | nil => cases has
    | cons e as =>
      cases has
      simp

/-! ## The history of a run -/

/-- The event that a call leaves. -/
def Call.Tells : Call → Event → Prop
  | .addHandler _, e => ∃ key registered, e = .added key registered
  | .removeHandler key, e => e = .removed key
  | .hasHandler key, e => ∃ answer, e = .queried key answer

/-- What an action leaves, oldest first: a dispatch, the calls of its callback between its start and
its end. -/
def Act.Tells : Act → List Event → Prop
  | .call c, told => ∃ e, c.Tells e ∧ told = [e]
  | .dispatch record status body, told => ∃ key within, List.Forall₂ Call.Tells body within ∧
      told = .started record key status :: within ++ [.finished key status]
  | .beginShutdown, told => told = []

namespace MessageLoop
variable {s t : MessageLoop}

theorem call_tells {c : Call} (h : s.call c = .ok t) : ∃ e, c.Tells e ∧ observed t.log = e :: observed s.log := by
  cases c with
  | addHandler req =>
    obtain ⟨⟨u, key⟩, hu, h⟩ := of_bind_ok h
    cases h
    exact ⟨_, ⟨key, _, rfl⟩, (addHandler_leaves hu).1⟩
  | removeHandler key => exact ⟨_, rfl, (removeHandler_leaves h).log⟩
  | hasHandler key =>
    obtain ⟨⟨u, answer⟩, hu, h⟩ := of_bind_ok h
    cases h
    exact ⟨_, ⟨answer, rfl⟩, (hasHandler_leaves hu).log⟩

theorem calls_tell {body : List Call} (h : body.foldlM MessageLoop.call s = .ok t) :
    ∃ within, List.Forall₂ Call.Tells body within ∧ observed t.log = within.reverse ++ observed s.log := by
  induction body generalizing s with
  | nil =>
    cases h
    exact ⟨[], .nil, rfl⟩
  | cons c body ih =>
    obtain ⟨u, hu, h⟩ := of_bind_ok h
    obtain ⟨e, he, hlog⟩ := call_tells hu
    obtain ⟨within, hwithin, hlog'⟩ := ih h
    exact ⟨e :: within, .cons he hwithin, by simp [hlog', hlog]⟩

end MessageLoop

namespace Registry
variable {n : Nat} {s t : MessageLoop}

/-- The callback that ends a dispatch is the one that began it. -/
theorem dispatch_tells (h : Registry n s) (hc : s.currentHandler = none) {r : RecordPtr}
    (hr : r ∈ s.loop.registered) {status : MxStatus} {body : List Call}
    (hn : KeysLast (n + (body.map Call.adds).sum) s) (ht : s.dispatch r status body = .ok t) :
    ∃ told, (Act.dispatch r status body).Tells told ∧ observed t.log = told.reverse ++ observed s.log := by
  obtain ⟨rec, hrec, hk, henter⟩ := h.dispatchEnter_eq hc hr status
  have hin : Effect (fun _ => True) 0 s (s.entered r rec.key status) := .entered trivial hc hrec hk
  have hreg := h.effect hin (hn.imp_right (by omega))
  obtain ⟨u, hu, hbody, hcur, hlast⟩ := hreg.calls (A := fun _ => True) body hn
  have hexit : u.dispatchExit r status = .ok t := by simpa [MessageLoop.dispatch, henter, hu] using ht
  obtain ⟨within, hwithin, hlog⟩ := MessageLoop.calls_tell hu
  obtain ⟨rec', hrec', hend⟩ := MessageLoop.dispatchExit_leaves hexit
  have hkey : rec'.key = rec.key := by
    obtain ⟨rec'', st, hrec'', hlast'⟩ := (hreg.effects hbody hn).running r hcur
    obtain rfl := Option.some.inj (hrec'.symm.trans hrec'')
    have heq := hlast'.symm.trans hlast
    simp only [MessageLoop.entered, lastStart, Option.some.injEq, Prod.mk.injEq] at heq
    exact heq.2.1
  refine ⟨_, ⟨rec.key, within, hwithin, rfl⟩, ?_⟩
  rw [hend.log, hlog, (MessageLoop.dispatchEnter_leaves henter).2.log, hkey]
  simp

theorem step_tells (h : Registry n s) (hc : s.currentHandler = none) {a : Act} (he : loopMachine.Enabled s a)
    (hn : KeysLast (n + a.adds) s) (ht : loopMachine.step s a = .ok t) :
    ∃ told, a.Tells told ∧ observed t.log = told.reverse ++ observed s.log := by
  cases a with
  | call c =>
    obtain ⟨e, he, hlog⟩ := MessageLoop.call_tells ht
    exact ⟨[e], ⟨e, he, rfl⟩, hlog⟩
  | dispatch r status body => exact h.dispatch_tells hc he hn ht
  | beginShutdown =>
    cases ht
    exact ⟨[], rfl, rfl⟩

theorem run_tells {acts : List Act} (h : Registry n s) (hc : s.currentHandler = none)
    (hn : KeysLast (n + (acts.map Act.adds).sum) s) (hrun : loopMachine.Run s acts (.ok t)) :
    ∃ told, List.Forall₂ Act.Tells acts told ∧ observed t.log = told.flatten.reverse ++ observed s.log := by
  induction acts generalizing n s with
  | nil =>
    cases hrun
    exact ⟨[], .nil, rfl⟩
  | cons a acts ih =>
    rw [List.map_cons, List.sum_cons] at hn
    cases hrun with
    | step he hs hrest =>
      obtain ⟨told, htold, hlog⟩ := h.step_tells hc he (hn.imp_right (by omega)) hs
      obtain ⟨u, hu, heff, hcur⟩ := h.step (A := fun _ => True) hc a he a.allowed_any (hn.imp_right (by omega))
      rw [hs] at hu
      cases hu
      obtain ⟨rest, hrest, hlog'⟩ := ih (h.effects heff (hn.imp_right (by omega))) hcur (keysLast_effects heff hn) hrest
      exact ⟨told :: rest, .cons htold hrest, by simp [hlog', hlog]⟩

end Registry

/-- The history of a run tells its actions in order, one event for each call, and nothing else: what is
said of the history is said of the calls. -/
theorem history_tells_run {acts : List Act} {s : MessageLoop} (hrun : loopMachine.Run {} acts (.ok s))
    (hadds : (acts.map Act.adds).sum < 2^64) :
    ∃ told, List.Forall₂ Act.Tells acts told ∧ observed s.log = told.flatten.reverse := by
  obtain ⟨told, htold, hlog⟩ := Registry.init.run_tells rfl (.inr (by omega)) hrun
  exact ⟨told, htold, hlog.trans (List.append_nil _)⟩

/-! ## The refinement -/

/-- The loop refines the abstract set of active registrations: keys are never reused, `HasHandler`
answers membership, and a callback after `RemoveHandler(key)` belongs to a registration made
after it, which a key that had been returned before never gets. No callback follows an error. -/
theorem callbacks_follow_registrations {acts : List Act} {result : Except Fault MessageLoop}
    (hrun : loopMachine.Run {} acts result) (hadds : (acts.map Act.adds).sum < 2^64) :
    ∃ s, result = .ok s ∧
      (addedKeys s.log).Nodup ∧ 0 ∉ addedKeys s.log ∧
      (∀ key, ∃ t answer, s.hasHandler key = .ok (t, answer) ∧ (answer = true ↔ Active s.log key)) ∧
      (∀ later between earlier r key status,
        s.log = later ++ .started r key status :: between ++ .removed key :: earlier →
          .added key true ∈ between ∧ key ∉ addedKeys earlier) ∧
      (∀ later between earlier r r' key status status', status' ≠ .ok →
        s.log ≠ later ++ .started r key status :: between ++ .started r' key status' :: earlier) := by
  obtain ⟨s, hs, heff, hc⟩ := Registry.run hrun .init rfl (fun a _ => a.allowed_any) (.inr (by omega))
  have hreg := Registry.init.effects heff (.inr (by omega))
  have htr := Traced.init.effects .init (.inr (by omega)) heff
  rw [Nat.zero_add] at hreg htr
  have hnodup := htr.nodup_keys hadds
  refine ⟨s, hs, hnodup, ?_, ?_, ?_, ?_⟩
  · rw [htr.mem_keys hadds]
    simp
  · intro key
    refine ⟨_, _, hreg.hasHandler_eq key, ?_⟩
    rw [← htr.active_iff, Option.isSome_iff_ne_none]
  · intro later between earlier r key status heq
    have hact := (htr.callable later r key status (between ++ .removed key :: earlier)
      (by rw [heq, List.append_assoc]; rfl)).1
    have hadd := hact.added_after_removed
    refine ⟨hadd, fun hmem => ?_⟩
    have hmem' : key ∈ addedKeys (later ++ .started r key status :: between) :=
      List.mem_filterMap.mpr ⟨.added key true, by simp [hadd], rfl⟩
    rw [heq, addedKeys_append] at hnodup
    exact (List.disjoint_of_nodup_append hnodup) hmem' hmem
  · intro later between earlier r r' key status status' hst heq
    have hcall := htr.callable later r key status (between ++ .started r' key status' :: earlier)
      (by rw [heq, List.append_assoc]; rfl)
    exact hcall.2 r' status' hst (by simp)

/-- Key 2 is removed before it is given out; then handler 1 removes itself and adds handler 2, which
times out. At the end only handler 3 is registered. -/
theorem callbacks_follow_registrations_reentrant :
    ∃ s later between earlier, loopMachine.Run {} [.call (.addHandler someRequest), .call (.removeHandler 2),
        .dispatch 0 .ok [.removeHandler 1, .hasHandler 1, .addHandler someRequest],
        .dispatch 1 .errTimedOut [.hasHandler 2], .call (.addHandler someRequest)] (.ok s) ∧
      s.log = later ++ .started 1 2 .errTimedOut :: between ++ .removed 2 :: earlier ∧
      .added 2 true ∈ between ∧ 2 ∉ addedKeys earlier ∧ .queried 1 false ∈ between ∧
      Active s.log 3 ∧ ¬ Active s.log 1 ∧ ¬ Active s.log 2 := by
  have hrun : loopMachine.Run {} [.call (.addHandler someRequest), .call (.removeHandler 2),
      .dispatch 0 .ok [.removeHandler 1, .hasHandler 1, .addHandler someRequest],
      .dispatch 1 .errTimedOut [.hasHandler 2], .call (.addHandler someRequest)] (.ok _) :=
    .step trivial rfl (.step trivial rfl (.step (show 0 ∈ _ by decide) rfl
      (.step (show 1 ∈ _ by decide) rfl (.step trivial rfl (.nil _)))))
  obtain ⟨s, hs, -, -, hhas, hremoved, -⟩ := callbacks_follow_registrations hrun (by decide)
  have hanswer (key : HandlerKey) (answer : Bool) (hkey : Prod.snd <$> s.hasHandler key = .ok answer) :
      answer = true ↔ Active s.log key := by
    obtain ⟨t, answer', heq, hiff⟩ := hhas key
    rw [heq] at hkey
    cases hkey
    exact hiff
  have heq : s.log = [.added 3 true, .deleted 1, .finished 2 .errTimedOut, .queried 2 true] ++
      .started 1 2 .errTimedOut :: [.deleted 0, .finished 1 .ok, .added 2 true, .queried 1 false, .removed 1,
        .started 0 1 .ok] ++ .removed 2 :: [.added 1 true] := by
    cases hs
    rfl
  obtain ⟨hadded, hnew⟩ := hremoved _ _ _ 1 2 .errTimedOut heq
  cases hs
  exact ⟨_, _, _, _, hrun, heq, hadded, hnew, by simp, (hanswer 3 true rfl).mp rfl,
    fun h => absurd ((hanswer 1 false rfl).mpr h) (by simp), fun h => absurd ((hanswer 2 false rfl).mpr h) (by simp)⟩

end Mtl.Tasks
