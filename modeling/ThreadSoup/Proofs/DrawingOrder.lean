import ThreadSoup.Proofs.EffectStream

namespace ThreadSoup

namespace EffectQueue

theorem layer_le_trans (a b c : Effect) (hab : decide (a.layer ≤ b.layer) = true)
    (hbc : decide (b.layer ≤ c.layer) = true) : decide (a.layer ≤ c.layer) = true := by
  simp only [decide_eq_true_eq] at *
  omega

theorem layer_le_total (a b : Effect) :
    (decide (a.layer ≤ b.layer) || decide (b.layer ≤ a.layer)) = true := by
  simp only [Bool.or_eq_true, decide_eq_true_eq]
  omega

theorem renderOrder_perm (queue : EffectQueue) : queue.renderOrder.Perm queue.toList :=
  List.mergeSort_perm _ _

theorem renderOrder_sorted (queue : EffectQueue) :
    queue.renderOrder.Pairwise fun first second => first.layer ≤ second.layer :=
  (List.pairwise_mergeSort layer_le_trans layer_le_total queue.toList).imp of_decide_eq_true

/-- Sorting does not change the order within a layer. The effects of a layer are sorted as they are
queued, so the sorted queue has them as a sublist, and it has no others on the layer. -/
theorem renderOrder_filter (queue : EffectQueue) (layer : Nat) :
    queue.renderOrder.filter (·.layer = layer) = queue.toList.filter (·.layer = layer) := by
  have hlayer : ∀ effect ∈ queue.toList.filter (·.layer = layer), effect.layer = layer :=
    fun effect hmem => by simpa using (List.mem_filter.mp hmem).2
  have hsorted : (queue.toList.filter (·.layer = layer)).Pairwise
      fun first second => decide (first.layer ≤ second.layer) = true := by
    refine List.pairwise_of_forall_mem_list ?_
    intro first hfirst second hsecond
    rw [hlayer first hfirst, hlayer second hsecond]
    exact decide_eq_true (Nat.le_refl layer)
  have hkept : (queue.toList.filter (·.layer = layer)).Sublist queue.renderOrder :=
    List.sublist_mergeSort layer_le_trans layer_le_total hsorted List.filter_sublist
  have hinside := hkept.filter (·.layer = layer)
  rw [List.filter_filter] at hinside
  simp only [Bool.and_self] at hinside
  exact (hinside.eq_of_length (queue.renderOrder_perm.filter _).length_eq.symm).symm

end EffectQueue

namespace Effect

theorem layer_eq_one {effect : Effect} : effect.layer = 1 ↔ effect.kind = .pulse := by
  unfold layer
  cases effect.kind with
  | pulse | fallForward | fallReverse | zoom => decide

theorem layer_eq_two {effect : Effect} :
    effect.layer = 2 ↔ effect.kind = .fallForward ∨ effect.kind = .fallReverse := by
  unfold layer
  cases effect.kind with
  | pulse | fallForward | fallReverse | zoom => decide

theorem layer_eq_three {effect : Effect} : effect.layer = 3 ↔ effect.kind = .zoom := by
  unfold layer
  cases effect.kind with
  | pulse | fallForward | fallReverse | zoom => decide

theorem layer_cases (effect : Effect) :
    effect.layer = 1 ∨ effect.layer = 2 ∨ effect.layer = 3 := by
  rw [layer_eq_one, layer_eq_two, layer_eq_three]
  cases effect.kind with
  | pulse | fallForward | fallReverse | zoom => decide

end Effect

/-- A list that is sorted by layers is its three layers, one after the other. -/
theorem eq_layers {effects : List Effect}
    (h : effects.Pairwise fun first second => first.layer ≤ second.layer) :
    effects = effects.filter (·.layer = 1) ++ effects.filter (·.layer = 2) ++
      effects.filter (·.layer = 3) := by
  induction effects with
  | nil => rfl
  | cons effect rest ih =>
    obtain ⟨hfirst, hrest⟩ := List.pairwise_cons.mp h
    -- what comes later lies on no lower layer than the first effect
    have hnone : ∀ layer < effect.layer, rest.filter (·.layer = layer) = [] := by
      intro layer hlow
      rw [List.filter_eq_nil_iff]
      intro other hmem heq
      have hle := hfirst other hmem
      simp only [decide_eq_true_eq] at heq
      omega
    have hlayers := ih hrest
    rcases effect.layer_cases with hlayer | hlayer | hlayer
    · simpa [hlayer] using hlayers
    · rw [hnone 1 (by omega)] at hlayers
      simpa [hlayer, hnone 1 (by omega)] using hlayers
    · rw [hnone 1 (by omega), hnone 2 (by omega)] at hlayers
      simpa [hlayer, hnone 1 (by omega), hnone 2 (by omega)] using hlayers

namespace EffectQueue

theorem renderOrder_eq (queue : EffectQueue) :
    queue.renderOrder = queue.toList.filter (·.layer = 1) ++ queue.toList.filter (·.layer = 2) ++
      queue.toList.filter (·.layer = 3) := by
  have hlayers := eq_layers queue.renderOrder_sorted
  simpa only [renderOrder_filter] using hlayers

/-- The layers are drawn in their order, and each of them from the youngest effect on. -/
theorem renderOrder_youngest_first {queue : EffectQueue}
    (h : queue.toList.Pairwise fun newer older => newer.progress ≤ older.progress) :
    queue.renderOrder.Pairwise fun first second =>
      first.layer < second.layer ∨
        first.layer = second.layer ∧ first.progress ≤ second.progress := by
  rw [List.pairwise_iff_forall_sublist]
  intro first second hdrawn
  have hle := List.pairwise_iff_forall_sublist.mp queue.renderOrder_sorted hdrawn
  rcases Nat.lt_or_eq_of_le hle with hlt | heq
  · exact Or.inl hlt
  · -- two effects of one layer are queued in the order in which they are drawn
    have hqueued := hdrawn.filter (·.layer = second.layer)
    rw [renderOrder_filter] at hqueued
    simp only [heq, decide_true, List.filter_cons_of_pos, List.filter_nil] at hqueued
    exact Or.inr ⟨heq, List.pairwise_iff_forall_sublist.mp h (hqueued.trans List.filter_sublist)⟩

end EffectQueue

namespace Simulator

variable {σ : Type} [RandomSource σ]

/-- The drawing order of a queue is its pulses, its falls of both directions as they are queued, and
its zooms. In every state that a host can reach the youngest effects of a layer are drawn first. -/
theorem effects_drawn_by_layer :
    (∀ queue : EffectQueue, queue.renderOrder.Perm queue.toList ∧
      queue.renderOrder =
        queue.toList.filter (·.kind = .pulse) ++
        queue.toList.filter (fun effect => effect.kind = .fallForward ∨ effect.kind = .fallReverse) ++
        queue.toList.filter (·.kind = .zoom)) ∧
    ∀ (rows columns : Nat) (config : Config) (source : σ) (start sim : Simulator σ)
      (commands : List Command),
      create rows columns config source = .ok start → start.run commands = .ok sim →
        sim.effects.renderOrder.Pairwise fun first second =>
          first.layer < second.layer ∨
            first.layer = second.layer ∧ first.progress ≤ second.progress := by
  refine ⟨?_, ?_⟩
  · intro queue
    refine ⟨queue.renderOrder_perm, ?_⟩
    rw [queue.renderOrder_eq]
    simp only [Effect.layer_eq_one, Effect.layer_eq_two, Effect.layer_eq_three]
  · intro rows columns config source start sim commands hc hr
    obtain ⟨layout, rfl, rfl, rfl⟩ := create_layout hc
    have orderly := run_preserves (P := fun a => a.effects.Orderly layout.config a.size)
      (fun _ _ _ _ => perform_orderly) (create_wellFormed hc).1 (create_orderly hc) hr
    exact EffectQueue.renderOrder_youngest_first orderly.sorted

/-- An expiry, and two deaths at different times. The pulses overtake the falls, and these keep their
order although one is forward and the other one reverse. -/
theorem freshRow_drawn :
    create 1 3 freshRow.config freshRow.source = .ok freshRow ∧
      ∃ sim, freshRow.run [.write 0 127, .write 1 spawnByte, .spawn 0 false, .behave 30,
          .spawn 2 true, .spawn 2 true, .behave 10, .finishFrame] = .ok sim ∧
        sim.effects.renderOrder = [⟨.pulse, 1, 10⟩, ⟨.pulse, 0, 40⟩, ⟨.fallReverse, 1, 10⟩,
          ⟨.fallForward, 0, 40⟩, ⟨.zoom, 1, 40⟩] ∧
        sim.effects.renderOrder.Pairwise fun first second =>
          first.layer < second.layer ∨
            first.layer = second.layer ∧ first.progress ≤ second.progress := by
  have hc : create 1 3 freshRow.config freshRow.source = .ok freshRow := by rfl
  have hrun : (freshRow.run [.write 0 127, .write 1 spawnByte, .spawn 0 false, .behave 30,
      .spawn 2 true, .spawn 2 true, .behave 10, .finishFrame]).map (fun sim => sim.effects.toList) =
        .ok [⟨.pulse, 1, 10⟩, ⟨.fallReverse, 1, 10⟩, ⟨.pulse, 0, 40⟩, ⟨.fallForward, 0, 40⟩,
          ⟨.zoom, 1, 40⟩] := by decide +kernel
  obtain ⟨sim, hr, heffects⟩ := map_eq_ok.mp hrun
  obtain ⟨hqueues, hdrawn⟩ := effects_drawn_by_layer (σ := Script)
  refine ⟨hc, sim, hr, ?_, hdrawn 1 3 freshRow.config freshRow.source freshRow sim _ hc hr⟩
  rw [(hqueues sim.effects).2, heffects]
  decide

end Simulator

end ThreadSoup
