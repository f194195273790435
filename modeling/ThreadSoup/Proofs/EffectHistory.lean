import ThreadSoup.Proofs.EffectStream

namespace ThreadSoup

/-- The effect some time later, if it is then still alive. Nothing is cut off here. -/
def Effect.after (effect : Effect) (ms : Nat) : Option Effect :=
  if effect.progress + ms ≤ effect.lifeSpan then
    some { effect with progress := effect.progress + ms }
  else none

/-- What can be done to a queue. -/
inductive QueueStep where
  | push (effect : Effect)
  | advance (ms : UInt32)

def QueueStep.ms : QueueStep → Nat
  | .push _ => 0
  | .advance ms => ms.toNat

/-- An effect that is pushed has not outlived its span. -/
def QueueStep.Alive : QueueStep → Prop
  | .push effect => effect.progress ≤ effect.lifeSpan
  | .advance _ => True

/-- The time that passes in a list of steps. -/
def timePassed (steps : List QueueStep) : Nat := (steps.map QueueStep.ms).sum

namespace EffectQueue

def perform (queue : EffectQueue) : QueueStep → EffectQueue
  | .push effect => (queue.push effect).1
  | .advance ms => queue.advance ms.toNat

def replay (queue : EffectQueue) (steps : List QueueStep) : EffectQueue := steps.foldl perform queue

/-- The pushes that the queue accepts, newest first, each with the time that passes after it. -/
def accepted (queue : EffectQueue) : List QueueStep → List (Effect × Nat)
  | [] => []
  | .push effect :: rest =>
    accepted (queue.push effect).1 rest ++
      if (queue.push effect).2 then [(effect, timePassed rest)] else []
  | .advance ms :: rest => accepted (queue.advance ms.toNat) rest

end EffectQueue

theorem Effect.after_zero {effect : Effect} (h : effect.progress ≤ effect.lifeSpan) :
    effect.after 0 = some effect := if_pos h

theorem Effect.after_eq_some {effect later : Effect} {ms : Nat} (h : effect.after ms = some later) :
    later.progress = effect.progress + ms ∧ later.progress ≤ later.lifeSpan := by
  unfold Effect.after at h
  split at h
  next hlive => cases h; exact ⟨rfl, hlive⟩
  next => cases h

/-- An effect that is dead after some time stays dead. -/
theorem Effect.after_after (effect : Effect) (a b : Nat) :
    (effect.after a).bind (·.after b) = effect.after (a + b) := by
  by_cases hlive : effect.progress + a ≤ effect.lifeSpan
  · have hfirst : effect.after a = some { effect with progress := effect.progress + a } := if_pos hlive
    rw [hfirst, Option.bind_some]
    change (if effect.progress + a + b ≤ effect.lifeSpan then
      some { effect with progress := effect.progress + a + b } else none) = _
    rw [Nat.add_assoc]
    rfl
  · have hfirst : effect.after a = none := if_neg hlive
    have hlast : effect.after (a + b) = none := if_neg (by omega)
    rw [hfirst, hlast, Option.bind_none]

/-- What would be cut off is dead before. -/
theorem Effect.after_min (effect : Effect) (ms : Nat) :
    effect.after (min ms counterMax) = effect.after ms := by
  have hmax : counterMax = 2 ^ 32 - 1 := rfl
  have hspan : effect.lifeSpan ≤ 1000 := effect.kind.lifeSpan_le
  rcases Nat.le_total ms counterMax with hle | hle
  · rw [Nat.min_eq_left hle]
  · have hcut : effect.after counterMax = none := if_neg (by omega)
    have hlong : effect.after ms = none := if_neg (by omega)
    rw [Nat.min_eq_right hle, hcut, hlong]

namespace EffectQueue

theorem advance_filterMap (queue : EffectQueue) (ms : Nat) :
    (queue.advance ms).toList = queue.toList.filterMap (·.after ms) := by
  rw [advance_eq, ← List.filterMap_eq_map, List.filterMap_filter]
  apply List.filterMap_congr
  intro effect _
  by_cases hlive : effect.progress + ms ≤ effect.lifeSpan
  · simp [hlive, Effect.after, Effect.age_of_live hlive]
  · simp [hlive, Effect.after]

theorem filterMap_after_after (list : List Effect) (a b : Nat) :
    (list.filterMap (·.after a)).filterMap (·.after b) = list.filterMap (·.after (a + b)) := by
  rw [List.filterMap_filterMap]
  exact List.filterMap_congr fun effect _ => effect.after_after a b

theorem advance_advance (queue : EffectQueue) (a b : Nat) :
    (queue.advance a).advance b = queue.advance (min (a + b) counterMax) := by
  have hlists : ((queue.advance a).advance b).toList =
      (queue.advance (min (a + b) counterMax)).toList := by
    calc
      _ = queue.toList.filterMap (·.after (a + b)) := by
        rw [advance_filterMap, advance_filterMap, filterMap_after_after]
      _ = (queue.advance (min (a + b) counterMax)).toList := by
        simp only [advance_filterMap, Effect.after_min]
  exact congrArg EffectQueue.mk hlists

theorem push_eq_false_iff (queue : EffectQueue) (effect : Effect) :
    (queue.push effect).2 = false ↔ effect ∈ queue.toList := by
  unfold push
  split
  next hmem => simp [hmem]
  next hnew => simp [hnew]

theorem push_of_mem {queue : EffectQueue} {effect : Effect} (h : effect ∈ queue.toList) :
    queue.push effect = (queue, false) := if_pos h

theorem push_of_not_mem {queue : EffectQueue} {effect : Effect} (h : effect ∉ queue.toList) :
    queue.push effect = (⟨effect :: queue.toList⟩, true) := if_neg h

theorem perform_nodup {queue : EffectQueue} (step : QueueStep) (h : queue.toList.Nodup) :
    (queue.perform step).toList.Nodup := by
  cases step with
  | push effect => exact insert_nodup effect h
  | advance ms => exact advance_nodup ms.toNat h

theorem replay_nodup {queue : EffectQueue} (steps : List QueueStep) (h : queue.toList.Nodup) :
    (queue.replay steps).toList.Nodup := by
  induction steps generalizing queue with
  | nil => exact h
  | cons step rest ih => exact ih (perform_nodup step h)

theorem perform_alive {queue : EffectQueue} {step : QueueStep} (hstep : step.Alive)
    (h : ∀ effect ∈ queue.toList, effect.progress ≤ effect.lifeSpan) :
    ∀ effect ∈ (queue.perform step).toList, effect.progress ≤ effect.lifeSpan := by
  intro effect hmem
  cases step with
  | push new =>
    rcases mem_insert.mp hmem with rfl | hold
    · exact hstep
    · exact h effect hold
  | advance ms =>
    have hmem : effect ∈ (queue.advance ms.toNat).toList := hmem
    rw [advance_filterMap] at hmem
    obtain ⟨old, _, hold⟩ := List.mem_filterMap.mp hmem
    exact (Effect.after_eq_some hold).2

/-- A queue holds what it has accepted and, behind that, what it held before, as far as these are
still alive. The induction is on the steps, with the queue before them left open: a step moves
effects from the accepted pushes to the contents of the next queue. -/
theorem replay_eq {queue : EffectQueue} {steps : List QueueStep}
    (hsteps : ∀ step ∈ steps, step.Alive)
    (h : ∀ effect ∈ queue.toList, effect.progress ≤ effect.lifeSpan) :
    (queue.replay steps).toList =
      (queue.accepted steps).filterMap (fun entry => entry.1.after entry.2) ++
        queue.toList.filterMap (·.after (timePassed steps)) := by
  induction steps generalizing queue with
  | nil =>
    have hkept : queue.toList.filterMap (·.after 0) = queue.toList.filterMap some :=
      List.filterMap_congr fun effect hmem => Effect.after_zero (h effect hmem)
    simp only [accepted, List.filterMap_nil, List.nil_append]
    exact (hkept.trans List.filterMap_some).symm
  | cons step rest ih =>
    have hnext := ih (fun s hs => hsteps s (List.mem_cons_of_mem step hs))
      (perform_alive (hsteps step (by simp)) h)
    have hreplay : (queue.replay (step :: rest)) = (queue.perform step).replay rest := rfl
    rw [hreplay, hnext]
    cases step with
    | push effect =>
      have htime : timePassed (.push effect :: rest) = timePassed rest := Nat.zero_add _
      rw [htime]
      by_cases hmem : effect ∈ queue.toList
      · simp only [perform, accepted, push_of_mem hmem, Bool.false_eq_true, if_false, List.append_nil]
      · simp only [perform, accepted, push_of_not_mem hmem, if_true, List.filterMap_append,
          List.append_assoc, List.filterMap_cons, List.filterMap_nil]
        cases effect.after (timePassed rest) with
        | none => rfl
        | some later => rfl
    | advance ms =>
      have htime : timePassed (.advance ms :: rest) = ms.toNat + timePassed rest := rfl
      rw [htime]
      simp only [perform, accepted, advance_filterMap, filterMap_after_after]

/-- A queue that starts empty never holds an effect twice. It holds, newest first, exactly the
accepted pushes that are still alive, each with the time since its push as its progress; a push is
refused if and only if its effect is queued, and then nothing changes. Time that passes in two
parts passes as one, also where the sum does not fit its counter. -/
theorem queue_is_its_history :
    (∀ steps : List QueueStep, (replay {} steps).toList.Nodup) ∧
    (∀ steps : List QueueStep,
      (∀ effect, .push effect ∈ steps → effect.progress ≤ effect.lifeSpan) →
      (replay {} steps).toList =
        (accepted {} steps).filterMap fun entry =>
          if entry.1.progress + entry.2 ≤ entry.1.lifeSpan then
            some { entry.1 with progress := entry.1.progress + entry.2 }
          else none) ∧
    (∀ (queue : EffectQueue) (effect : Effect),
      ((queue.push effect).2 = false ↔ effect ∈ queue.toList) ∧
      ((queue.push effect).2 = false → (queue.push effect).1 = queue)) ∧
    ∀ (queue : EffectQueue) (a b : UInt32),
      (queue.advance a.toNat).advance b.toNat =
        queue.advance (min (a.toNat + b.toNat) (2 ^ 32 - 1)) := by
  refine ⟨?_, ?_, ?_, fun queue a b => queue.advance_advance a.toNat b.toNat⟩
  · intro steps
    exact replay_nodup steps List.nodup_nil
  · intro steps hpushes
    have hsteps : ∀ step ∈ steps, step.Alive := by
      intro step hmem
      cases step with
      | push effect => exact hpushes effect hmem
      | advance ms => trivial
    have hreplay : (replay {} steps).toList = _ := replay_eq hsteps (by simp)
    rw [hreplay]
    exact List.append_nil _
  · intro queue effect
    refine ⟨queue.push_eq_false_iff effect, ?_⟩
    intro hrefused
    rw [push_of_mem ((queue.push_eq_false_iff effect).mp hrefused)]

/-- Of two equal pushes the second one is accepted only after the first one has aged, and a zoom
dies before a pulse of the same time. -/
theorem queue_history_of_six_steps :
    (∀ effect, .push effect ∈ ([.push ⟨.zoom, 1, 0⟩, .push ⟨.zoom, 1, 0⟩, .push ⟨.pulse, 1, 0⟩,
        .advance 300, .push ⟨.zoom, 1, 0⟩, .advance 201] : List QueueStep) →
      effect.progress ≤ effect.lifeSpan) ∧
    (replay {} [.push ⟨.zoom, 1, 0⟩, .push ⟨.zoom, 1, 0⟩, .push ⟨.pulse, 1, 0⟩,
        .advance 300, .push ⟨.zoom, 1, 0⟩, .advance 201]).toList =
      [⟨.zoom, 1, 201⟩, ⟨.pulse, 1, 501⟩] := by
  have hpushes : ∀ effect, .push effect ∈ ([.push ⟨.zoom, 1, 0⟩, .push ⟨.zoom, 1, 0⟩,
      .push ⟨.pulse, 1, 0⟩, .advance 300, .push ⟨.zoom, 1, 0⟩, .advance 201] : List QueueStep) →
      effect.progress ≤ effect.lifeSpan := by
    intro effect hmem
    simp only [List.mem_cons, QueueStep.push.injEq, reduceCtorEq, List.not_mem_nil, or_false,
      false_or] at hmem
    rcases hmem with rfl | rfl | rfl | rfl <;> exact Nat.zero_le _
  refine ⟨hpushes, ?_⟩
  rw [queue_is_its_history.2.1 _ hpushes]
  decide

end EffectQueue

end ThreadSoup
