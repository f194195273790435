import ThreadSoup.Proofs.Provenance
import ThreadSoup.Proofs.Safety

namespace ThreadSoup

theorem map_range'_const {α : Type} {f : Nat → α} {start count : Nat} {a : α}
    (h : ∀ i, start ≤ i → i < start + count → f i = a) :
    (List.range' start count).map f = List.replicate count a := by
  rw [List.eq_replicate_iff]
  refine ⟨by simp, ?_⟩
  intro b hmem
  obtain ⟨i, hi, rfl⟩ := List.mem_map.mp hmem
  obtain ⟨hlow, hhigh⟩ := List.mem_range'_1.mp hi
  exact h i hlow hhigh

/-- The numbers below the total select the kinds one after the other, without a gap, each of them
as often as its weight says. -/
theorem map_noiseKind (config : Config) :
    (List.range config.totalSlice).map (noiseKind config) =
      List.replicate config.copySlice.toNat .copy ++ List.replicate config.haltSlice.toNat .halt ++
        List.replicate config.pushSlice.toNat .push ++
        List.replicate config.spawnSlice.toNat .spawn := by
  unfold Config.totalSlice
  rw [List.range_eq_range', ← List.range'_append_1, ← List.range'_append_1, ← List.range'_append_1,
    List.map_append, List.map_append, List.map_append, map_range'_const, map_range'_const,
    map_range'_const, map_range'_const]
  -- the last stretch comes first
  · intro i hlow hhigh
    rw [noiseKind, if_neg (by omega), if_neg (by omega), if_neg (by omega)]
  · intro i hlow hhigh
    rw [noiseKind, if_neg (by omega), if_neg (by omega), if_pos (by omega)]
  · intro i hlow hhigh
    rw [noiseKind, if_neg (by omega), if_pos (by omega)]
  · intro i hlow hhigh
    rw [noiseKind, if_pos (by omega)]

theorem countP_noiseKind (config : Config) (kind : NoiseKind) :
    (List.range config.totalSlice).countP (noiseKind config · = kind) =
      (kind.weight config).toNat := by
  have hcount : (List.range config.totalSlice).countP (noiseKind config · = kind) =
      ((List.range config.totalSlice).map (noiseKind config)).countP (· = kind) := by
    rw [List.countP_map]
    rfl
  rw [hcount, map_noiseKind]
  cases kind with
  | copy | halt | push | spawn => simp [List.countP_append, List.countP_replicate, NoiseKind.weight]

/-- A literal of noise has a byte of its own. -/
theorem literal_encoded {literal : Int} (hlow : -11 ≤ literal) (hhigh : literal ≤ 11) :
    ∃ byte value, (Op.push (Int32.ofInt literal)).encode = .ok byte ∧
      Op.decode byte = .push value ∧ value.toInt = literal := by
  obtain ⟨byte, hbyte⟩ := encode_noise_exists hlow hhigh
  exact ⟨byte, Int32.ofInt literal, hbyte, Op.decode_of_encode hbyte,
    Int32.toInt_ofInt_of_le (by omega) (by omega)⟩

section Draw

variable {σ : Type} [RandomSource σ]

/-- What noise writes for a kind, and the source after that. Only a literal is drawn as well. -/
def NoiseKind.Gives (drawn : σ) (op : Op) (rest : σ) : NoiseKind → Prop
  | .copy => op = .copy ∧ rest = drawn
  | .halt => op = .halt ∧ rest = drawn
  | .spawn => op = .spawn ∧ rest = drawn
  | .push => ∃ literal value, RandomSource.within noiseRadius drawn = some (literal, rest) ∧
      -11 ≤ literal ∧ literal ≤ 11 ∧ op = .push value ∧ value.toInt = literal

namespace Simulator

theorem noiseByte_gives {config : Config} {source : σ} (hr : Reliable source)
    (hweights : 0 < config.totalSlice) :
    ∃ slice drawn, RandomSource.below config.totalSlice source = some (slice, drawn) ∧
      slice < config.totalSlice ∧ ∃ byte rest, noiseByte config source = .ok (byte, rest) ∧
        (noiseKind config slice).Gives drawn (Op.decode byte) rest := by
  obtain ⟨slice, drawn, hslice, hlt, hdrawn⟩ := hr.below hweights
  refine ⟨slice, drawn, hslice, hlt, ?_⟩
  unfold noiseByte
  simp only [hslice, draw, ok_bind]
  cases noiseKind config slice with
  | copy => exact ⟨copyByte, drawn, rfl, rfl, rfl⟩
  | halt => exact ⟨haltByte, drawn, rfl, rfl, rfl⟩
  | spawn => exact ⟨spawnByte, drawn, rfl, rfl, rfl⟩
  | push =>
    obtain ⟨literal, rest, hliteral, hlow, hhigh, _⟩ := hdrawn.within
    obtain ⟨byte, value, hbyte, hop, hvalue⟩ := literal_encoded hlow hhigh
    refine ⟨byte, rest, ?_, literal, value, hliteral, hlow, hhigh, hop, hvalue⟩
    simp only [hliteral, ok_bind, hbyte, pure_eq]

/-- A kind of operation is written for as many of the numbers that can be drawn as its weight says,
and no sum of weights exceeds its word. Noise overwrites one cell with what the number selects, a
literal being read back as it was drawn, and changes nothing else. Without weights it does nothing,
whatever the source. -/
theorem noise_weights_exact (sim : Simulator σ) :
    let config := sim.config
    let copy := config.copySlice.toNat
    let halt := config.haltSlice.toNat
    let push := config.pushSlice.toNat
    let spawn := config.spawnSlice.toNat
    config.totalSlice = copy + halt + push + spawn ∧
    copy + halt < 2 ^ 64 ∧ copy + halt + push < 2 ^ 64 ∧ config.totalSlice < 2 ^ 64 ∧
    (config.totalSlice = 0 → ∀ index, sim.randomizeCell index = .ok sim) ∧
    (0 < config.totalSlice →
      (List.range config.totalSlice).countP (noiseKind config · = .copy) = copy ∧
      (List.range config.totalSlice).countP (noiseKind config · = .halt) = halt ∧
      (List.range config.totalSlice).countP (noiseKind config · = .push) = push ∧
      (List.range config.totalSlice).countP (noiseKind config · = .spawn) = spawn ∧
      (Reliable sim.source →
        ∃ slice drawn, RandomSource.below config.totalSlice sim.source = some (slice, drawn) ∧
          slice < config.totalSlice ∧
          ∀ index < sim.size, ∃ byte next, sim.randomizeCell index = .ok next ∧
            (noiseKind config slice).Gives drawn (Op.decode byte) next.source ∧
            next.memory.get index = .ok {
              byte
              modified := 1
              lifespan := if byte = spawnByte then config.spawnLifeSpan.toNat else 0 } ∧
            (∀ place, place ≠ index → next.memory.get place = sim.memory.get place) ∧
            next.memory.shape = sim.memory.shape ∧ next.memory.dirty = true ∧
            next = { sim with memory := next.memory, source := next.source })) ∧
    ∀ literal : Int, -11 ≤ literal → literal ≤ 11 →
      ∃ byte value, (Op.push (Int32.ofInt literal)).encode = .ok byte ∧
        Op.decode byte = .push value ∧ value.toInt = literal := by
  intro config copy halt push spawn
  have htotal : config.totalSlice = copy + halt + push + spawn := rfl
  have hfits : config.totalSlice < 2 ^ 64 := Nat.lt_trans config.totalSlice_lt (by decide)
  refine ⟨htotal, by omega, by omega, hfits, ?_, ?_, fun literal => literal_encoded⟩
  · intro hzero index
    exact if_pos hzero
  · intro hweights
    refine ⟨countP_noiseKind config .copy, countP_noiseKind config .halt,
      countP_noiseKind config .push, countP_noiseKind config .spawn, ?_⟩
    intro hr
    obtain ⟨slice, drawn, hslice, hlt, byte, rest, hbyte, hgives⟩ := noiseByte_gives hr hweights
    refine ⟨slice, drawn, hslice, hlt, ?_⟩
    intro index hindex
    obtain ⟨memory, hmemory⟩ := setOp_exists byte config.spawnLifeSpan.toNat hindex
    obtain ⟨hself, hother⟩ := setOp_observed hmemory
    refine ⟨byte, { sim with memory, source := rest }, ?_, hgives, hself, hother,
      setOp_shape hmemory, setOp_dirty hmemory, rfl⟩
    unfold randomizeCell
    rw [if_neg (Nat.ne_of_gt hweights), hbyte, ok_bind]
    simp only
    rw [hmemory]
    rfl

/-- A row of three spawn cells about to be met by noise with the greatest weights. -/
def saturated : Simulator Script :=
  { config :=
      { spawnLifeSpan := 7
        copySlice := 4294967295
        haltSlice := 4294967295
        pushSlice := 4294967295
        spawnSlice := 4294967295 }
    memory :=
      { rows := 1
        columns := 3
        cells := Array.replicate 3 { byte := spawnByte, modified := 2, lifespan := 7 }
        dirty := false }
    threads := []
    effects := {}
    progress := 0
    cycles := 0
    tally := {}
    source := ⟨[0x9999999999999999, 0, 5]⟩ }

/-- A number in the third quarter draws the least literal. Without weights no word is used. -/
theorem saturated_noise :
    (List.range saturated.config.totalSlice).countP (noiseKind saturated.config · = .push) =
      4294967295 ∧
    (∃ next, saturated.randomizeCell 1 = .ok next ∧
      next.memory.get 1 = .ok { byte := 116, modified := 1, lifespan := 0 } ∧
      next.memory.get 0 = saturated.memory.get 0 ∧ next.source = ⟨[5]⟩) ∧
    { saturated with config := {} }.randomizeCell 1 = .ok { saturated with config := {} } := by
  obtain ⟨_, _, _, _, _, hnoise, _⟩ := noise_weights_exact saturated
  obtain ⟨_, _, hpush, _, hdraw⟩ := hnoise (by decide)
  obtain ⟨_, _, _, _, hwrite⟩ := hdraw (Script.reliable saturated.source (by decide))
  obtain ⟨byte, next, hnext, _, hself, hother, _⟩ := hwrite 1 (by decide)
  obtain ⟨_, _, _, _, hidle, _⟩ := noise_weights_exact { saturated with config := {} }
  have hrun : (saturated.randomizeCell 1).map
      (fun sim => ((sim.memory.get 1).map Cell.byte, sim.source)) = .ok (.ok 116, ⟨[5]⟩) := by
    decide +kernel
  rw [hnext] at hrun
  obtain ⟨hbyte, hsource⟩ := Prod.mk.inj (Except.ok.inj hrun)
  rw [hself] at hbyte
  obtain rfl : byte = 116 := Except.ok.inj hbyte
  exact ⟨hpush, ⟨next, hnext, hself, hother 0 (by decide), hsource⟩, hidle rfl 1⟩

end Simulator

end Draw

end ThreadSoup
