import Mtl.Tasks.HandlerRegistry

/-! Loop destruction: `loop_.Shutdown()` dispatches what is still registered with
`MX_ERR_CANCELED`, in any order, until nothing is. -/
namespace Mtl.Tasks
open Foundation

/-- `Shutdown` dispatching the given records, each with a callback body. -/
def shutdownActs (turns : List (RecordPtr × List Call)) : List Act :=
  .beginShutdown :: turns.map fun turn => .dispatch turn.1 .errCanceled turn.2

/-- The callbacks started for a key. -/
def Event.startsFor (key : HandlerKey) : Event → Bool
  | .started _ k _ => k = key
  | _ => false

def starts (key : HandlerKey) (log : List Event) : Nat := log.countP (Event.startsFor key)

@[grind =] theorem starts_cons (key : HandlerKey) (e : Event) (log : List Event) :
    starts key (e :: log) = starts key log + if e.startsFor key then 1 else 0 := by
  simp [starts, List.countP_cons]

/-- The loop is shutting down and runs no callback but for `MX_ERR_CANCELED`. -/
structure Canceling (s : MessageLoop) : Prop where
  shut : s.loop.shutDown = true
  status : ∀ r key status, s.currentHandler ≠ none → lastStart s.log = some (r, key, status) →
    status = .errCanceled

/-- Nothing is registered by a loop that shuts down. -/
theorem Canceling.effect {c : Nat} {s t : MessageLoop} (h : Canceling s)
    (he : Effect (· = .errCanceled) c s t) :
    Canceling t ∧ t.loop.registered ⊆ s.loop.registered := by
  obtain ⟨h1, h2⟩ := h
  cases he with
  | registered req hs =>
    rw [h1] at hs
    cases hs
  | refused | absent | deferred | queried => exact ⟨⟨h1, h2⟩, fun r hr => hr⟩
  | cancelled => exact ⟨⟨h1, h2⟩, Finset.erase_subset _ _⟩
  | entered hA =>
    refine ⟨⟨h1, ?_⟩, Finset.erase_subset _ _⟩
    rintro r key st - hl
    cases hl
    exact hA
  | rearmed hc _ hl =>
    cases h2 _ _ _ (by simp [hc]) hl
  | ended => exact ⟨⟨h1, fun r key st hc => absurd rfl hc⟩, fun r hr => hr⟩
  | shutdown => exact ⟨⟨rfl, h2⟩, fun r hr => hr⟩

theorem Canceling.effects {m : Nat} {s t : MessageLoop} (h : Canceling s)
    (he : Effects (· = .errCanceled) m s t) :
    Canceling t ∧ t.loop.registered ⊆ s.loop.registered := by
  induction he with
  | refl => exact ⟨h, fun r hr => hr⟩
  | cons he _ ih =>
    obtain ⟨hc, hsub⟩ := h.effect he
    obtain ⟨hc', hsub'⟩ := ih hc
    exact ⟨hc', hsub'.trans hsub⟩

/-- A loop that shuts down, between two dispatches. -/
def Cancelable (s : MessageLoop) : Prop :=
  ∃ n, Registry n s ∧ s.currentHandler = none ∧ s.loop.shutDown = true

/-- Each dispatch of a shutdown leaves fewer registrations. -/
theorem Cancelable.dispatch {s t : MessageLoop} (h : Cancelable s) {r : RecordPtr}
    (hr : r ∈ s.loop.registered) {body : List Call} (ht : s.dispatch r .errCanceled body = .ok t) :
    Cancelable t ∧ t.loop.registered.card < s.loop.registered.card := by
  obtain ⟨n, hreg, hc, hs⟩ := h
  obtain ⟨key, u, hu, hin, heff, hidle⟩ :=
    hreg.dispatch (A := (· = .errCanceled)) hc hr rfl body (.inl hs)
  rw [ht] at hu
  cases hu
  have hbegun : Canceling s := ⟨hs, fun _ _ _ hne => absurd hc hne⟩
  have hent := (hbegun.effect hin).1
  obtain ⟨hcancel, hsub⟩ := hent.effects heff
  have hreg' := (hreg.effect hin (.inl hs)).effects heff (.inl hent.shut)
  exact ⟨⟨_, hreg', hidle, hcancel.shut⟩,
    (Finset.card_le_card hsub).trans_lt (Finset.card_erase_lt_of_mem hr)⟩

theorem Cancelable.turns_le {s t : MessageLoop} (h : Cancelable s) {turns : List (RecordPtr × List Call)}
    (hrun : loopMachine.Run s (turns.map fun turn => .dispatch turn.1 .errCanceled turn.2) (.ok t)) :
    turns.length + t.loop.registered.card ≤ s.loop.registered.card := by
  have hlen := hrun.length_le (I := Cancelable) (P := fun a => ∃ r body, a = .dispatch r .errCanceled body)
    (μ := fun s => s.loop.registered.card) ?_ h ?_
  · rwa [List.length_map] at hlen
  · rintro s a t hs ⟨r, body, rfl⟩ hr ht
    exact hs.dispatch hr ht
  · intro a ha
    obtain ⟨turn, -, rfl⟩ := List.mem_map.mp ha
    exact ⟨turn.1, turn.2, rfl⟩

/-- The state `t` of a shutdown that began in `s`, where `new` is what happened since. -/
structure Draining (s : MessageLoop) (new : List Event) (t : MessageLoop) : Prop where
  canceling : Canceling t
  log : t.log = new ++ s.log
  refused : ∀ key, .added key true ∉ new
  kept : ∀ key r, t.handlers.lookup key = some r → s.handlers.lookup key = some r
  known : ∀ r key status, .started r key status ∈ new →
    status = .errCanceled ∧ s.handlers.lookup key = some r
  running : ∀ r key status, t.currentHandler ≠ none → lastStart t.log = some (r, key, status) →
    s.handlers.lookup key = some r
  fate : ∀ key r, s.handlers.lookup key = some r →
    (t.handlers.lookup key = some r ∧ t.currentHandler ≠ some r ∧ starts key new = 0) ∨
    (t.currentHandler = some r ∧ starts key new = 1) ∨
    (t.handlers.lookup key = none ∧ t.currentHandler ≠ some r ∧ starts key new = 1) ∨
    (t.handlers.lookup key = none ∧ t.currentHandler ≠ some r ∧ starts key new = 0 ∧
      .removed key ∈ new)

/-- One effect of a shutdown. -/
theorem Draining.effect {n c : Nat} {s t u : MessageLoop} {new : List Event}
    (h : Draining s new t) (hreg : Registry n t) (he : Effect (· = .errCanceled) c t u)
    (hinj : ∀ k k' r, s.handlers.lookup k = some r → s.handlers.lookup k' = some r → k = k') :
    ∃ new', Draining s new' u := by
  have hcanceling := (h.canceling.effect he).1
  obtain ⟨⟨hshut, hst⟩, h1, h2, h3, h4, h5, h6⟩ := h
  cases he with
  | registered req hs =>
    rw [hshut] at hs
    cases hs
  | refused =>
    refine ⟨.added t.nextHandlerKey false :: .deleted t.nextRecord :: new, hcanceling, ?_, ?_, ?_, ?_, ?_, ?_⟩
    all_goals try simp only [MessageLoop.refused, lastStart, starts_cons, Event.startsFor]
    all_goals grind
  | @absent _ key hk =>
    refine ⟨.removed key :: new, hcanceling, ?_, ?_, ?_, ?_, ?_, ?_⟩
    all_goals try simp only [MessageLoop.note, lastStart, starts_cons, Event.startsFor]
    all_goals grind
  | @deferred _ key r hk hc =>
    refine ⟨.removed key :: new, hcanceling, ?_, ?_, ?_, ?_, ?_, ?_⟩
    all_goals try simp only [MessageLoop.deferred, lastStart, starts_cons, Event.startsFor]
    all_goals grind
  | @cancelled _ key r hk hc =>
    refine ⟨.removed key :: .deleted r :: new, hcanceling, ?_, ?_, ?_, ?_, ?_, ?_⟩
    all_goals try simp only [MessageLoop.cancelled, lastStart, starts_cons, Event.startsFor]
    all_goals grind
  | queried key =>
    refine ⟨.queried key (t.handlers.lookup key).isSome :: new, hcanceling, ?_, ?_, ?_, ?_, ?_, ?_⟩
    all_goals try simp only [MessageLoop.note, lastStart, starts_cons, Event.startsFor]
    all_goals grind
  | @entered _ r rec status hA hc hr hk =>
    refine ⟨.started r rec.key status :: new, hcanceling, ?_, ?_, ?_, ?_, ?_, ?_⟩
    all_goals try simp only [MessageLoop.entered, starts_cons, Event.startsFor]
    all_goals grind
  | @rearmed _ r rec hc hr hl hrem =>
    cases hst r rec.key .ok (by simp [hc]) hl
  | @ended _ r rec status hc hr hl hrem =>
    have hgone := fun hrem => hreg.removed_key hrem hc hr
    refine ⟨.deleted r :: .finished rec.key status :: new, hcanceling, ?_, ?_, ?_, ?_, ?_, ?_⟩
    all_goals try simp only [MessageLoop.ended, starts_cons, Event.startsFor]
    all_goals grind
  | shutdown => exact ⟨new, hcanceling, h1, h2, h3, h4, h5, h6⟩

private theorem Draining.begun {s : MessageLoop} (hs : Settled s) : Draining s [] s.beginShutdown := by
  have hidle (r : RecordPtr) : s.currentHandler ≠ some r := by simp [hs.idle]
  refine ⟨⟨rfl, fun _ _ _ hne => absurd hs.idle hne⟩, rfl, by simp, fun _ _ h => h, by simp,
    fun _ _ _ hne => absurd hs.idle hne, ?_⟩
  exact fun key r hk => .inl ⟨hk, hidle r, rfl⟩

/-- `~MessageLoop` on any set of registered handlers: each is told `MX_ERR_CANCELED` once unless
it is removed first, nothing is registered, and once nothing waits any more the loop is empty. -/
theorem shutdown_drains {s : MessageLoop} (hs : Settled s) {turns : List (RecordPtr × List Call)}
    {result : Except Fault MessageLoop} (hrun : loopMachine.Run s (shutdownActs turns) result) :
    ∃ t new, result = .ok t ∧ t.log = new ++ s.log ∧
      turns.length + t.loop.registered.card ≤ s.loop.registered.card ∧
      (∀ key, .added key true ∉ new) ∧
      (∀ r key status, .started r key status ∈ new →
        status = .errCanceled ∧ s.handlers.lookup key = some r) ∧
      (t.loop.registered = ∅ →
        (∀ key r, s.handlers.lookup key = some r →
          starts key new = 1 ∨ (starts key new = 0 ∧ .removed key ∈ new)) ∧
        t.handlers = ∅ ∧ t.finishDestruction = .ok { t with current := false } ∧
        ∀ r, r < t.nextRecord → t.log.count (.deleted r) = 1) := by
  obtain ⟨n, hreg₀⟩ := hs.registry
  have hreg : Registry n s.beginShutdown := hreg₀.shutdown
  have hdrain := Draining.begun hs
  replace hrun : loopMachine.Run s.beginShutdown
      (turns.map fun turn => .dispatch turn.1 .errCanceled turn.2) result := by
    cases hrun with
    | step _ hstep hr => cases hstep; exact hr
    | fault _ hstep => cases hstep
  have hcancel : ∀ a ∈ turns.map (fun turn => Act.dispatch turn.1 .errCanceled turn.2),
      a.Allowed (· = .errCanceled) := by
    intro a ha
    obtain ⟨turn, -, rfl⟩ := List.mem_map.mp ha
    rfl
  obtain ⟨t, rfl, heff, hidle⟩ := Registry.run hrun hreg hs.idle hcancel (.inl rfl)
  -- Every effect between the first dispatch and the last is one of a loop that drains.
  obtain ⟨new, hnew⟩ : ∃ new, Draining s new t :=
    Registry.effects_keep (P := fun _ u => ∃ new, Draining s new u)
      (fun _ _ _ _ hreg _ he ⟨_, h⟩ => h.effect hreg he hs.distinct) heff hreg (.inl rfl) ⟨[], hdrain⟩
  have hend := (hreg.effects heff (.inl rfl)).settled hidle
  have hlen := Cancelable.turns_le ⟨n, hreg, hs.idle, rfl⟩ hrun
  refine ⟨t, new, rfl, hnew.log, hlen, hnew.refused, hnew.known, fun hempty => ?_⟩
  have hnone := hend.handlers_empty hempty
  refine ⟨?_, hnone, by simp [MessageLoop.finishDestruction, hnone], ?_⟩
  · intro key r hk
    rcases hnew.fate key r hk with ⟨hk', -⟩ | ⟨hc, -⟩ | ⟨-, -, h1⟩ | ⟨-, -, h0, hrem⟩
    · simp [hnone] at hk'
    · rw [hidle] at hc
      cases hc
    · exact .inl h1
    · exact .inr ⟨h0, hrem⟩
  · intro r hr
    have hgone : r ∉ t.records := by simp [hend.live_registered r, hempty]
    rw [hend.deleted_once r, if_pos ⟨hr, hgone⟩]

/-- A loop with the handlers 1, 2 and 3. -/
private def threeHandlers : MessageLoop :=
  ((MessageLoop.registered {} someRequest).registered someRequest).registered someRequest

/-- Of three handlers the second is cancelled first, removes the first and adds one in vain. -/
theorem shutdown_drains_reentrant :
    ∃ s t, loopMachine.Run {} (List.replicate 3 (.call (.addHandler someRequest))) (.ok s) ∧
      loopMachine.Run s (shutdownActs [(1, [.removeHandler 1, .addHandler someRequest]), (2, [])]) (.ok t) ∧
      t.handlers = ∅ ∧ t.nextRecord = 4 ∧ ∀ r, r < t.nextRecord → t.log.count (.deleted r) = 1 := by
  have hrun : loopMachine.Run {} (List.replicate 3 (.call (.addHandler someRequest))) (.ok threeHandlers) :=
    .step trivial rfl (.step trivial rfl (.step trivial rfl (.nil _)))
  obtain ⟨s, hs, -, hset⟩ := Settled.of_run hrun (by decide)
  cases hs
  have hdrain : loopMachine.Run threeHandlers
      (shutdownActs [(1, [.removeHandler 1, .addHandler someRequest]), (2, [])]) (.ok _) :=
    .step trivial rfl (.step (show 1 ∈ _ by decide) rfl (.step (show 2 ∈ _ by decide) rfl (.nil _)))
  obtain ⟨t, new, ht, -, -, -, -, hend⟩ := shutdown_drains hset hdrain
  cases ht
  obtain ⟨-, hempty, -, hdeleted⟩ := hend (by decide)
  exact ⟨_, _, hrun, hdrain, hempty, rfl, hdeleted⟩

end Mtl.Tasks
