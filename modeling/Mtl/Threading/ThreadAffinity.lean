import Mtl.Threading.LoopThreads

/-! Tasks run on the thread of their loop, and `RunsTasksOnCurrentThread` says which one that is, whatever the threads
of a program do. -/
namespace Mtl.Threading
open Foundation Tasks

/-- What a loop is like while its thread is at a stage. -/
def Stage.Fits : Stage → QueuedLoop → Prop
  | .outside, c | .constructing _, c => c.handover.initialized = false ∧ c.isRunning = false
  | .ready _, c | .returned _, c => c.handover.queue.delegate = true ∧ c.handover.running = none ∧
      c.handover.loop.shutDown = false ∧ c.isRunning = false
  | .inRun _, c => c.handover.queue.delegate = true ∧ c.handover.running = none ∧
      c.handover.loop.shutDown = false ∧ c.isRunning = true
  | .inTask _, c => c.handover.queue.delegate = true ∧ c.handover.running ≠ none ∧
      c.handover.loop.shutDown = false ∧ c.isRunning = true
  | .shuttingDown _, c => c.handover.queue.delegate = true ∧ c.handover.running = none ∧
      c.handover.loop.shutDown = true ∧ c.isRunning = false
  | .cleared _, c | .exited, c => c.handover.queue.dropIncomingTasks = true ∧ c.isRunning = false

/-- The thread is between `InitDelegate` and `ClearDelegate` of the loop on `q`. -/
def Stage.Serves (stage : Stage) (q : QueueId) : Prop :=
  stage ∈ [.ready q, .inRun q, .inTask q, .returned q, .shuttingDown q]

/-- The stage of the loop on `q`: that of its thread, as long as it has one. -/
def LoopThreads.stageOf (s : LoopThreads) (q : QueueId) : Stage :=
  match s.home q with
  | none => .outside
  | some t => if (s.stage t).loop = some q then s.stage t else .exited

/-- Each loop fits its stage and keeps the books of its own queue. -/
structure Tended (stage : Stage) (c : QueuedLoop) (home : Option ThreadId) : Prop where
  fits : stage.Fits c
  handed : Handed c.handover
  held : c.handover.released = false
  quits : c.quit = true → c.isRunning = true
  ran : ranTasks c.handover = c.ranOn.map Prod.fst
  thread : ∀ e ∈ c.ranOn, home = some e.2

/-- A loop has one thread, which `g_current` of that thread knows. -/
structure Threaded (s : LoopThreads) : Prop where
  current : ∀ t, s.gCurrent t = (s.stage t).loop
  home : ∀ t q, (s.stage t).loop = some q → s.home q = some t
  tended : ∀ q, Tended (s.stageOf q) (s.loops q) (s.home q)
  freshQueue : ∀ q, s.nextQueue ≤ q → s.home q = none
  freshThread : ∀ t, s.nextThread ≤ t → s.taskQueue t = none ∧ s.stage t = .outside
  given : ∀ t q, s.taskQueue t = some q → q < s.nextQueue ∧
    (s.home q = none ∧ s.stage t = .outside ∨ s.home q = some t ∧ (s.stage t = .exited ∨ (s.stage t).loop = some q))
  sole : ∀ t t' q, s.taskQueue t = some q → s.taskQueue t' = some q → t = t'
  clients : ∀ t, s.taskQueue t = none → s.stage t ≠ .exited

namespace Threaded
variable {s : LoopThreads} {t : ThreadId} {q : QueueId}

theorem start (threads : Nat) : Threaded (LoopThreads.start threads) := by
  refine ⟨fun t => rfl, by simp [LoopThreads.start, Stage.loop], fun q => ?_, fun q _ => rfl, fun t _ => ⟨rfl, rfl⟩,
    by simp [LoopThreads.start], by simp [LoopThreads.start], by simp [LoopThreads.start]⟩
  exact ⟨⟨rfl, rfl⟩, .init, rfl, by simp [LoopThreads.start], rfl, by simp [LoopThreads.start]⟩

/-- The loop that a thread is in the code of. -/
theorem stageOf_eq (h : Threaded s) (hq : (s.stage t).loop = some q) : s.stageOf q = s.stage t := by
  rw [LoopThreads.stageOf, h.home t q hq]
  exact if_pos hq

/-- A step in the code of a loop concerns that loop only. -/
theorem advance (h : Threaded s) (hq : (s.stage t).loop = some q) {stage : Stage} (hstage : stage.loop = some q)
    {c : QueuedLoop} (hc : Tended stage c (some t)) : Threaded (s.advance t q stage c) := by
  have hhome := h.home t q hq
  have hloop (t' : ThreadId) : (Function.update s.stage t stage t').loop = (s.stage t').loop := by
    rw [Function.update_apply]
    split_ifs with ht
    · rw [hstage, ht, hq]
    · rfl
  obtain ⟨h1, h2, h3, h4, h5, h6, h7, h8⟩ := h
  refine ⟨fun t' => (h1 t').trans (hloop t').symm, fun t' q' hq' => h2 t' q' ((hloop t').symm.trans hq'), fun q' => ?_,
    h4, fun t' ht' => ⟨(h5 t' ht').1, ?_⟩, fun t' q' hq' => ⟨(h6 t' q' hq').1, ?_⟩, h7, fun t' ht' => ?_⟩
  · have hkeep := h3 q'
    simp only [LoopThreads.advance, LoopThreads.stageOf, hloop] at hkeep ⊢
    by_cases hqq : q' = q
    · subst hqq
      simpa [hhome, hq] using hc
    · rw [Function.update_of_ne hqq]
      cases hh : s.home q' with
      | none => simpa only [hh] using hkeep
      | some t' =>
        have hother : (s.stage t').loop = some q' → t' ≠ t := by
          rintro hl rfl
          exact hqq (Option.some.inj (hl.symm.trans hq))
        simp only [hh] at hkeep ⊢
        split_ifs at hkeep ⊢ with hl
        · rwa [Function.update_of_ne (hother hl)]
        · exact hkeep
  · have hne : t' ≠ t := by
      rintro rfl
      simp [(h5 t' ht').2, Stage.loop] at hq
    exact (Function.update_of_ne hne _ _).trans (h5 t' ht').2
  · by_cases hne : t' = t
    · subst hne
      refine .inr ?_
      rcases (h6 t' q' hq').2 with ⟨-, hout⟩ | ⟨hh, hex | hl⟩
      · simp [hout, Stage.loop] at hq
      · simp [hex, Stage.loop] at hq
      · exact ⟨hh, .inr ((hloop t').trans hl)⟩
    · simpa only [LoopThreads.advance, Function.update_of_ne hne] using (h6 t' q' hq').2
  · by_cases hne : t' = t
    · subst hne
      intro hex
      have hst : stage = .exited := (Function.update_self _ _ _).symm.trans hex
      simp [hst, Stage.loop] at hstage
    · simpa only [LoopThreads.advance, Function.update_of_ne hne] using h8 t' ht'

/-- A new thread and its queue are known to nobody before. -/
theorem createThread (h : Threaded s) : Threaded s.createThread := by
  obtain ⟨h1, h2, h3, h4, h5, h6, h7, h8⟩ := h
  obtain ⟨hnone, hout⟩ := h5 s.nextThread le_rfl
  have hqueue (t' : ThreadId) : s.createThread.taskQueue t' =
      if t' = s.nextThread then some s.nextQueue else s.taskQueue t' := Function.update_apply _ _ _ _
  refine ⟨h1, h2, h3, fun q' hq' => h4 q' (Nat.le_of_succ_le hq'), fun t' ht' => ?_, fun t' q' hq' => ?_,
    fun t' u q' hq' hu => ?_, fun t' ht' => ?_⟩
  · have hne : t' ≠ s.nextThread := Nat.ne_of_gt ht'
    rw [hqueue, if_neg hne]
    exact h5 t' (Nat.le_of_succ_le ht')
  · rw [hqueue] at hq'
    split_ifs at hq' with hne
    · cases hq'
      exact ⟨Nat.lt_succ_self _, .inl ⟨h4 _ le_rfl, hne ▸ hout⟩⟩
    · exact ⟨Nat.lt_succ_of_lt (h6 t' q' hq').1, (h6 t' q' hq').2⟩
  · rw [hqueue] at hq' hu
    split_ifs at hq' hu with ht hu' hu'
    · rw [ht, hu']
    · cases hq'
      exact absurd (h6 u _ hu).1 (Nat.lt_irrefl _)
    · cases hu
      exact absurd (h6 t' _ hq').1 (Nat.lt_irrefl _)
    · exact h7 t' u q' hq' hu
  · rw [hqueue] at ht'
    split_ifs at ht' with hne
    exact h8 t' ht'

/-- A loop is made on a thread that has none, with a queue that had none. -/
theorem construct (h : Threaded s) (hout : s.stage t = .outside) (hq : s.home q = none) (hqlt : q < s.nextQueue)
    (ht : t < s.nextThread) (hgiven : ∀ t', s.taskQueue t' = some q ↔ t' = t ∧ s.taskQueue t ≠ none)
    (hown : ∀ q', s.taskQueue t = some q' → q' = q) :
    ∃ s', s.construct t q = .ok s' ∧ Threaded s' := by
  have hcur : s.gCurrent t = none := by rw [h.current, hout]; rfl
  refine ⟨_, by rw [LoopThreads.construct, if_neg (not_not.mpr hcur)], ?_⟩
  have hunmade := h.tended q
  have hnew : ∀ t', (s.stage t').loop ≠ some q := by
    intro t' hl
    have hhome := h.home t' q hl
    rw [hq] at hhome
    cases hhome
  simp only [LoopThreads.stageOf, hq] at hunmade
  obtain ⟨h1, h2, h3, h4, h5, h6, h7, h8⟩ := h
  constructor
  case current => grind [Stage.loop, Function.update_apply]
  case home => grind [Stage.loop, Function.update_apply]
  case tended =>
    intro q'
    have hkeep := h3 q'
    simp only [LoopThreads.stageOf] at hkeep ⊢
    by_cases hqq : q' = q
    · subst hqq
      obtain ⟨hfits, hhanded, hheld, hquits, hran, hthread⟩ := hunmade
      simp only [Function.update_self, Stage.loop, if_pos]
      refine ⟨hfits, hhanded, hheld, hquits, hran, fun e he => ?_⟩
      cases hthread e he
    · simp only [Function.update_of_ne hqq]
      cases hh : s.home q' with
      | none => simpa only [hh] using hkeep
      | some t' =>
        simp only [hh] at hkeep ⊢
        by_cases ht' : t' = t
        · subst ht'
          simpa [hout, Stage.loop, Ne.symm hqq] using hkeep
        · simpa only [Function.update_of_ne ht'] using hkeep
  case freshQueue => grind [Function.update_apply]
  case freshThread => grind [Function.update_apply]
  case given => grind [Stage.loop, Function.update_apply]
  case sole => exact h7
  case clients => grind [Function.update_apply]

/-- The end of the destructor. -/
theorem leave (h : Threaded s) (hq : s.stage t = .cleared q) : Threaded (s.leave t) := by
  have hfits := h.tended q
  have hhome := h.home t q (by rw [hq]; rfl)
  rw [h.stageOf_eq (by rw [hq]; rfl), hq] at hfits
  obtain ⟨h1, h2, h3, h4, h5, h6, h7, h8⟩ := h
  have hloop (t' : ThreadId) : ((s.leave t).stage t').loop = if t' = t then none else (s.stage t').loop := by
    simp only [LoopThreads.leave, Function.update_apply]
    split_ifs <;> rfl
  constructor
  case current =>
    intro t'
    rw [hloop]
    simp only [LoopThreads.leave, Function.update_apply]
    split_ifs
    · rfl
    · exact h1 t'
  case home =>
    intro t' q' hq'
    rw [hloop] at hq'
    split_ifs at hq'
    exact h2 t' q' hq'
  case tended =>
    intro q'
    have hkeep := h3 q'
    simp only [LoopThreads.stageOf, hloop] at hkeep ⊢
    by_cases hqq : q' = q
    · subst hqq
      have hend : Tended .exited (s.loops q') (some t) :=
        ⟨hfits.fits, hfits.handed, hfits.held, hfits.quits, hfits.ran, hhome ▸ hfits.thread⟩
      simpa [LoopThreads.leave, hhome] using hend
    · cases hh : s.home q' with
      | none => simpa only [LoopThreads.leave, hh] using hkeep
      | some t' =>
        by_cases ht' : t' = t
        · subst ht'
          simpa [LoopThreads.leave, hh, hq, Stage.loop, Ne.symm hqq] using hkeep
        · simpa [LoopThreads.leave, hh, ht'] using hkeep
  case freshQueue => exact h4
  case sole => exact h7
  all_goals simp only [LoopThreads.leave]
  case freshThread => grind [Stage.loop, Function.update_apply]
  case given => grind [Stage.loop, Function.update_apply]
  case clients => grind [Stage.loop, Function.update_apply]

/-- Tasks come from anywhere, before, while and after the loop exists. -/
theorem post (h : Threaded s) (q : QueueId) (req : PostRequest) : ∃ s', s.post q req = .ok s' ∧ Threaded s' := by
  obtain ⟨hfits, hhanded, hheld, hquits, hran, hthread⟩ := h.tended q
  obtain ⟨handover, hpost, hquiet⟩ := post_quiet hhanded hheld req
  refine ⟨_, by rw [LoopThreads.post, hpost]; rfl, ?_⟩
  refine ⟨h.current, h.home, fun q' => ?_, h.freshQueue, h.freshThread, h.given, h.sole, h.clients⟩
  simp only [Function.update_apply]
  split_ifs with hqq
  · subst hqq
    refine ⟨?_, hquiet.handed, hquiet.released.trans hheld, hquits, hquiet.ran.trans hran, hthread⟩
    simp only [LoopThreads.stageOf] at hfits ⊢
    cases hst : (match s.home q' with
      | none => Stage.outside
      | some t => if (s.stage t).loop = some q' then s.stage t else .exited)
    all_goals
      rw [hst] at hfits
      simpa only [Stage.Fits, hquiet.initialized, hquiet.delegate, hquiet.dropped, hquiet.shutDown, hquiet.running]
        using hfits
  · exact h.tended q'

/-- The loop of a thread, as the stage of the thread says. -/
theorem tended_at {stage : Stage} (h : Threaded s) (hst : s.stage t = stage) (hq : stage.loop = some q) :
    Tended stage (s.loops q) (some t) := by
  have hl : (s.stage t).loop = some q := by rw [hst, hq]
  have := h.tended q
  rwa [h.stageOf_eq hl, hst, h.home t q hl] at this

theorem gCurrent_eq {stage : Stage} (h : Threaded s) (hst : s.stage t = stage) (hq : stage.loop = some q) :
    s.gCurrent t = some q := by
  rw [h.current, hst, hq]

theorem makeLoop (h : Threaded s) (ht : t < s.nextThread) (hclient : s.taskQueue t = none)
    (hout : s.stage t = .outside) : ∃ s', s.makeLoop t = .ok s' ∧ Threaded s' := by
  have hq : s.home s.nextQueue = none := h.freshQueue _ le_rfl
  have hmore : Threaded { s with nextQueue := s.nextQueue + 1 } :=
    ⟨h.current, h.home, h.tended, fun q' hq' => h.freshQueue q' (Nat.le_of_succ_le hq'), h.freshThread,
      fun t' q' hq' => ⟨Nat.lt_succ_of_lt (h.given t' q' hq').1, (h.given t' q' hq').2⟩, h.sole, h.clients⟩
  refine hmore.construct hout hq (Nat.lt_succ_self _) ht (fun t' => ?_) (by simp [hclient])
  constructor
  · exact fun ht' => absurd (h.given t' _ ht').1 (Nat.lt_irrefl _)
  · exact fun ht' => absurd hclient ht'.2

theorem enter (h : Threaded s) (hout : s.stage t = .outside) (hq : s.taskQueue t = some q) :
    ∃ s', s.construct t q = .ok s' ∧ Threaded s' := by
  obtain ⟨hlt, ⟨hnone, -⟩ | ⟨-, hex | hl⟩⟩ := h.given t q hq
  · refine h.construct hout hnone hlt ?_ (fun t' => ?_) (by simp [hq])
    · exact Nat.lt_of_not_le fun hle => by simp [(h.freshThread t hle).1] at hq
    · exact ⟨fun ht' => ⟨h.sole t' t q ht' hq, by simp [hq]⟩, fun ht' => ht'.1 ▸ hq⟩
  · simp [hout] at hex
  · simp [hout, Stage.loop] at hl

theorem initDelegate (h : Threaded s) (hst : s.stage t = .constructing q) :
    ∃ s', s.initDelegate t q = .ok s' ∧ Threaded s' := by
  obtain ⟨⟨hinit, hrun⟩, hhanded, hheld, hquits, hran, hthread⟩ := h.tended_at hst rfl
  obtain ⟨handover, hstep, hH, hdel, hnone, hs, hrel, hsame, -, -⟩ := initDelegate_ready hhanded hinit hheld
  refine ⟨_, by rw [LoopThreads.initDelegate, hstep]; rfl, h.advance (by rw [hst]; rfl) rfl ?_⟩
  exact ⟨⟨hdel, hnone, hs, hrun⟩, hH, hrel, hquits, hsame.trans hran, hthread⟩

theorem run (h : Threaded s) (hst : s.stage t = .ready q) : ∃ s', s.run t q = .ok s' ∧ Threaded s' := by
  obtain ⟨⟨hdel, hnone, hs, hrun⟩, hhanded, hheld, -, hran, hthread⟩ := h.tended_at hst rfl
  refine ⟨_, by simp [LoopThreads.run, h.gCurrent_eq hst rfl, hrun]; rfl, h.advance (by rw [hst]; rfl) rfl ?_⟩
  exact ⟨⟨hdel, hnone, hs, rfl⟩, hhanded, hheld, fun _ => rfl, hran, hthread⟩

/-- A task that runs its own loop. -/
theorem run_nested (h : Threaded s) (hst : s.stage t = .inTask q) :
    s.run t q = .error (.check "Cannot run a nested message loop.") := by
  obtain ⟨⟨-, -, -, hrun⟩, -⟩ := h.tended_at hst rfl
  simp [LoopThreads.run, h.gCurrent_eq hst rfl, hrun]

theorem beginTask (h : Threaded s) (hst : s.stage t = .inRun q) {i : Nat}
    (hi : i < (s.loops q).handover.loop.accepted.length) : ∃ s', s.beginTask t q i = .ok s' ∧ Threaded s' := by
  obtain ⟨⟨hdel, hnone, hs, hrun⟩, hhanded, hheld, hquits, hran, hthread⟩ := h.tended_at hst rfl
  obtain ⟨handover, task, hstep, hH, hqueue, htask, hloop, hrel, hran', -⟩ := beginTask_runs hhanded hi hnone hs
  refine ⟨_, by rw [LoopThreads.beginTask, hstep]; rfl, h.advance (by rw [hst]; rfl) rfl ?_⟩
  refine ⟨⟨hqueue ▸ hdel, by simp [htask], hloop ▸ hs, hrun⟩, hH, hrel.trans hheld, hquits, ?_, ?_⟩
  · simp [htask, hran', hran]
  · intro e he
    rcases List.mem_append.mp he with hnew | hold
    · simp only [htask, Option.toList_some, List.map_cons, List.map_nil, List.mem_singleton] at hnew
      rw [hnew]
    · exact hthread e hold

theorem endTask (h : Threaded s) (hst : s.stage t = .inTask q) : ∃ s', s.endTask t q = .ok s' ∧ Threaded s' := by
  obtain ⟨⟨hdel, hsome, hs, hrun⟩, hhanded, hheld, hquits, hran, hthread⟩ := h.tended_at hst rfl
  obtain ⟨handover, hstep, hH, hqueue, hnone, hloop, hrel, hsame, -⟩ := endTask_returns hhanded hsome
  refine ⟨_, by rw [LoopThreads.endTask, hstep]; rfl, h.advance (by rw [hst]; rfl) rfl ?_⟩
  exact ⟨⟨hqueue ▸ hdel, hnone, hloop ▸ hs, hrun⟩, hH, hrel.trans hheld, hquits, hsame.trans hran, hthread⟩

theorem quitNow (h : Threaded s) (hl : (s.stage t).loop = some q) : ∃ s', s.quitNow t q = .ok s' ∧ Threaded s' := by
  obtain ⟨hfits, hhanded, hheld, hquits, hran, hthread⟩ := h.tended_at rfl hl
  refine ⟨_, by simp [LoopThreads.quitNow, h.gCurrent_eq rfl hl]; rfl, h.advance hl hl ?_⟩
  refine ⟨?_, hhanded, hheld, fun hquit => ?_, hran, hthread⟩
  · cases hst : s.stage t
    all_goals
      rw [hst] at hfits
      exact hfits
  · rcases (Bool.or_eq_true _ _).mp hquit with hrunning | hold
    · exact hrunning
    · exact hquits hold

theorem runReturns (h : Threaded s) (hst : s.stage t = .inRun q) : ∃ s', s.runReturns t q = .ok s' ∧ Threaded s' := by
  obtain ⟨⟨hdel, hnone, hs, hrun⟩, hhanded, hheld, -, hran, hthread⟩ := h.tended_at hst rfl
  refine ⟨_, by rw [LoopThreads.runReturns, if_pos hrun], h.advance (by rw [hst]; rfl) (by split_ifs <;> rfl) ?_⟩
  refine ⟨?_, hhanded, hheld, by simp, hran, hthread⟩
  split_ifs
  · exact ⟨hdel, hnone, hs, rfl⟩
  · exact ⟨hdel, hnone, hs, rfl⟩

theorem destroy (h : Threaded s) (hst : s.stage t = .ready q ∨ s.stage t = .returned q) :
    ∃ s', s.destroy t q = .ok s' ∧ Threaded s' := by
  have hl : (s.stage t).loop = some q := by rcases hst with hst | hst <;> rw [hst] <;> rfl
  have htended := h.tended_at rfl hl
  have hfits : (Stage.ready q).Fits (s.loops q) := by
    rcases hst with hst | hst
    all_goals
      rw [hst] at htended
      exact htended.fits
  obtain ⟨hdel, hnone, hs, hrun⟩ := hfits
  obtain ⟨-, hhanded, hheld, hquits, hran, hthread⟩ := htended
  have hinit := hhanded.started.mpr (.inl hdel)
  refine ⟨_, by simp [LoopThreads.destroy, h.gCurrent_eq rfl hl]; rfl, h.advance hl rfl ?_⟩
  exact ⟨⟨hdel, hnone, rfl, hrun⟩, hhanded.beginShutdown hinit hnone hs, hheld, hquits, hran, hthread⟩

theorem cancelTask (h : Threaded s) (hst : s.stage t = .shuttingDown q) {i : Nat}
    (hi : i < (s.loops q).handover.loop.accepted.length) : ∃ s', s.cancelTask t q i = .ok s' ∧ Threaded s' := by
  obtain ⟨⟨hdel, hnone, hs, hrun⟩, hhanded, hheld, hquits, hran, hthread⟩ := h.tended_at hst rfl
  obtain ⟨handover, hstep, hquiet⟩ := cancelTask_quiet hhanded hi hs
  refine ⟨_, by rw [LoopThreads.cancelTask, hstep]; rfl, h.advance (by rw [hst]; rfl) rfl ?_⟩
  exact ⟨⟨hquiet.delegate.trans hdel, hquiet.running.trans hnone, hquiet.shutDown.trans hs, hrun⟩, hquiet.handed,
    hquiet.released.trans hheld, hquits, hquiet.ran.trans hran, hthread⟩

theorem clearDelegate (h : Threaded s) (hst : s.stage t = .shuttingDown q)
    (ha : (s.loops q).handover.loop.accepted = []) : ∃ s', s.clearDelegate t q = .ok s' ∧ Threaded s' := by
  obtain ⟨⟨hdel, hnone, hs, hrun⟩, hhanded, hheld, hquits, hran, hthread⟩ := h.tended_at hst rfl
  obtain ⟨handover, hstep, hH, hdrop, hrel, hsame⟩ := clearDelegate_drops hhanded hs ha hdel
  refine ⟨_, by rw [LoopThreads.clearDelegate, hstep]; rfl, h.advance (by rw [hst]; rfl) rfl ?_⟩
  exact ⟨⟨hdrop, hrun⟩, hH, hrel.trans hheld, hquits, hsame.trans hran, hthread⟩

end Threaded

/-- What clients can do wrong: a second loop on a thread, and a loop that is run from its own task. -/
def ClientFault (e : Fault) : Prop :=
  e = .dcheck "At most one message loop per thread." ∨ e = .check "Cannot run a nested message loop."

theorem Threaded.step {s : LoopThreads} (h : Threaded s) (a : LoopThreadAct) (he : loopThreadsMachine.Enabled s a) :
    (∃ s', loopThreadsMachine.step s a = .ok s' ∧ Threaded s') ∨
      ∃ e, loopThreadsMachine.step s a = .error e ∧ ClientFault e := by
  cases a with
  | createThread => exact .inl ⟨_, rfl, h.createThread⟩
  | post q req => exact .inl (h.post q req)
  | makeLoop t =>
    by_cases hout : s.stage t = .outside
    · have hclient : s.taskQueue t = none := by
        rcases he.2 with ⟨hc, -⟩ | ⟨q, hq⟩
        · exact hc
        · simp [hout] at hq
      exact .inl (h.makeLoop he.1 hclient hout)
    · have hcur : s.gCurrent t ≠ none := by
        rw [h.current]
        rcases he.2 with ⟨-, hst | ⟨q, hst⟩⟩ | ⟨q, hst⟩
        · exact absurd hst hout
        · simp [hst, Stage.loop]
        · simp [hst, Stage.loop]
      exact .inr ⟨_, if_pos hcur, .inl rfl⟩
  | enter t q => exact .inl (h.enter he.1 he.2)
  | initDelegate t q => exact .inl (h.initDelegate he)
  | run t q =>
    rcases he with hst | hst
    · exact .inl (h.run hst)
    · exact .inr ⟨_, h.run_nested hst, .inr rfl⟩
  | beginTask t q i => exact .inl (h.beginTask he.1 he.2.2)
  | endTask t q => exact .inl (h.endTask he)
  | quitNow t q => exact .inl (h.quitNow he)
  | runReturns t q => exact .inl (h.runReturns he.1)
  | destroy t q => exact .inl (h.destroy (he.symm.imp_left And.left))
  | cancelTask t q i => exact .inl (h.cancelTask he.1 he.2)
  | clearDelegate t q => exact .inl (h.clearDelegate he.1 he.2)
  | leave t q => exact .inl ⟨_, rfl, h.leave he⟩

namespace Threaded
variable {s : LoopThreads} {t : ThreadId} {q : QueueId}

/-- The queue's answer on a thread: its loop is on that thread, and has the queue. -/
theorem runsTasks_iff (h : Threaded s) (t : ThreadId) (q : QueueId) :
    s.runsTasksOnCurrentThread t q = true ↔ (s.stage t).Serves q := by
  have hdelegate : s.runsTasksOnCurrentThread t q = true ↔
      (s.loops q).handover.queue.delegate = true ∧ (s.stage t).loop = some q := by
    simp [LoopThreads.runsTasksOnCurrentThread, IncomingTaskQueue.runsTasksOnCurrentThread, h.current]
  rw [hdelegate]
  constructor
  · rintro ⟨hdel, hl⟩
    obtain ⟨hfits, hhanded, -⟩ := h.tended_at rfl hl
    have hstarted := hhanded.started.mpr (.inl hdel)
    cases hst : s.stage t with
    | outside | exited => simp [hst, Stage.loop] at hl
    | constructing => simp [hst, Stage.Fits, hstarted] at hfits
    | cleared =>
      simp only [hst, Stage.Fits] at hfits
      simp [(hhanded.drained hfits.1).1] at hdel
    | ready | inRun | inTask | returned | shuttingDown =>
      rw [hst] at hl
      cases hl
      simp [Stage.Serves]
  · intro hserves
    have hl : (s.stage t).loop = some q := by
      simp only [Stage.Serves, List.mem_cons, List.not_mem_nil, or_false] at hserves
      rcases hserves with hst | hst | hst | hst | hst <;> rw [hst] <;> rfl
    refine ⟨?_, hl⟩
    have hfits := (h.tended_at rfl hl).fits
    simp only [Stage.Serves, List.mem_cons, List.not_mem_nil, or_false] at hserves
    rcases hserves with hst | hst | hst | hst | hst
    all_goals
      rw [hst] at hfits
      exact hfits.1

/-- The body of a task is on the thread of its loop. -/
theorem inTask_of_running (h : Threaded s) {task : TaskId} (hrun : (s.loops q).handover.running = some task) :
    ∃ t, s.home q = some t ∧ s.stage t = .inTask q := by
  obtain ⟨hfits, hhanded, -⟩ := h.tended q
  have hidle := hhanded.idle
  have hstage : ∃ q', s.stageOf q = .inTask q' := by
    cases hst : s.stageOf q with
    | inTask q' => exact ⟨q', rfl⟩
    | outside | constructing =>
      rw [hst] at hfits
      simp [(hhanded.unstarted hfits.1).2.2.1] at hrun
    | cleared | exited =>
      rw [hst] at hfits
      simp [hidle (hhanded.drained hfits.1).2.1] at hrun
    | ready | inRun | returned | shuttingDown =>
      rw [hst] at hfits
      simp [hfits.2.1] at hrun
  obtain ⟨q', hq'⟩ := hstage
  cases hhome : s.home q with
  | none => simp [LoopThreads.stageOf, hhome] at hq'
  | some t =>
    simp only [LoopThreads.stageOf, hhome] at hq'
    split_ifs at hq' with hl
    rw [hq'] at hl
    cases hl
    exact ⟨t, rfl, hq'⟩

end Threaded

/-- Whatever the threads of a program do, it fails only where a client makes a second loop on a thread or runs a loop
from its own task. `RunsTasksOnCurrentThread` is true exactly on the thread that is between `InitDelegate` and
`ClearDelegate`; a task runs on that thread and on no other, and for a queue from `CreateThread` that is the new one. -/
theorem tasks_run_on_their_thread {threads : Nat} {acts : List LoopThreadAct} {result : Except Fault LoopThreads}
    (hrun : loopThreadsMachine.Run (.start threads) acts result) :
    (∃ s, result = .ok s ∧
      (∀ t q, s.runsTasksOnCurrentThread t q = true ↔ (s.stage t).Serves q) ∧
      (∀ q task, (s.loops q).handover.running = some task →
        ∃ t, s.stage t = .inTask q ∧ ∀ t', s.runsTasksOnCurrentThread t' q = true ↔ t' = t) ∧
      (∀ q, ranTasks (s.loops q).handover = (s.loops q).ranOn.map Prod.fst ∧
        ∀ e ∈ (s.loops q).ranOn, s.home q = some e.2) ∧
      ∀ t q, s.taskQueue t = some q → ∀ e ∈ (s.loops q).ranOn, e.2 = t) ∨
    ∃ e, result = .error e ∧ ClientFault e := by
  refine (hrun.safe_or (I := Threaded) (fun s a h he => h.step a he) (.start threads)).imp_left ?_
  rintro ⟨s, rfl, h⟩
  refine ⟨s, rfl, h.runsTasks_iff, ?_, fun q => ⟨(h.tended q).ran, (h.tended q).thread⟩, ?_⟩
  · intro q task htask
    obtain ⟨t, hhome, hst⟩ := h.inTask_of_running htask
    refine ⟨t, hst, fun t' => ⟨fun ht' => ?_, ?_⟩⟩
    · have hl : s.gCurrent t' = some q := by
        simp only [LoopThreads.runsTasksOnCurrentThread, IncomingTaskQueue.runsTasksOnCurrentThread, Bool.and_eq_true,
          decide_eq_true_eq] at ht'
        exact ht'.2
      have := h.home t' q ((h.current t').symm.trans hl)
      rw [hhome] at this
      exact (Option.some.inj this).symm
    · rintro rfl
      rw [h.runsTasks_iff, hst]
      simp [Stage.Serves]
  · intro t q hgiven e he
    have hhome := (h.tended q).thread e he
    rcases (h.given t q hgiven).2 with ⟨hnone, -⟩ | ⟨hsome, -⟩
    · simp [hnone] at hhome
    · rw [hsome] at hhome
      exact (Option.some.inj hhome).symm

/-- A client creates a thread and posts to it before it starts. -/
theorem tasks_run_on_their_thread_created :
    ∃ s, loopThreadsMachine.Run (.start 1) [.createThread, .post 0 .postTask, .enter 1 0, .initDelegate 1 0, .run 1 0,
        .beginTask 1 0 0] (.ok s) ∧
      (s.loops 0).ranOn = [(0, 1)] ∧ ∀ t, s.runsTasksOnCurrentThread t 0 = true ↔ t = 1 := by
  have hrun : loopThreadsMachine.Run (.start 1) [.createThread, .post 0 .postTask, .enter 1 0, .initDelegate 1 0,
      .run 1 0, .beginTask 1 0 0] (.ok _) :=
    .step trivial rfl (.step (show 0 < 1 by decide) rfl (.step ⟨rfl, rfl⟩ rfl (.step rfl rfl (.step (.inl rfl) rfl
      (.step ⟨rfl, rfl, by decide⟩ rfl (.nil _))))))
  refine ⟨_, hrun, rfl, ?_⟩
  rcases tasks_run_on_their_thread hrun with ⟨s, hs, -, hinTask, -⟩ | ⟨e, he, -⟩
  · cases hs
    obtain ⟨t, -, hiff⟩ := hinTask 0 0 rfl
    have ht : 1 = t := (hiff 1).mp rfl
    rwa [← ht] at hiff
  · cases he

end Mtl.Threading
