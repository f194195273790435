import ThreadSoup.Proofs.MirrorCycle
import ThreadSoup.Proofs.Run

namespace ThreadSoup

namespace Op

theorem decode_push {byte : UInt8} (h : byte ≠ copyByte ∧ byte ≠ haltByte ∧ byte ≠ spawnByte) :
    decode byte = push (Int32.ofInt ((byte.toNat : Int) - pushBase)) := by
  unfold decode
  rw [if_neg h.1, if_neg h.2.1, if_neg h.2.2]

/-- Every byte can be read back from its operation. -/
theorem encode_decode (byte : UInt8) : (decode byte).encode = .ok byte := by
  by_cases hfixed : byte = copyByte ∨ byte = haltByte ∨ byte = spawnByte
  · rcases hfixed with rfl | rfl | rfl <;> rfl
  · simp only [not_or] at hfixed
    have hbase : pushBase = 127 := rfl
    have hlt := byte.toNat_lt
    have hliteral : (Int32.ofInt ((byte.toNat : Int) - pushBase)).toInt = byte.toNat - pushBase :=
      Int32.toInt_ofInt_of_le (by omega) (by omega)
    have hvalue : (pushBase : Int) + ((byte.toNat : Int) - pushBase) = byte.toNat := by omega
    have hfree : ¬(1 ≤ (byte.toNat : Int) ∧ (byte.toNat : Int) ≤ 3) := by
      simp only [copyByte, haltByte, spawnByte, ← UInt8.toNat_inj] at hfixed
      have hone : (1 : UInt8).toNat = 1 := rfl
      have htwo : (2 : UInt8).toNat = 2 := rfl
      have hthree : (3 : UInt8).toNat = 3 := rfl
      omega
    rw [decode_push hfixed]
    simp only [encode, hliteral, hvalue]
    rw [if_pos ⟨by omega, by omega, hfree⟩, Int.toNat_natCast, UInt8.ofNat_toNat]

/-- Different bytes are different operations. -/
theorem decode_inj {a b : UInt8} (h : decode a = decode b) : a = b := by
  have ha := encode_decode a
  rw [h, encode_decode b] at ha
  exact (Except.ok.inj ha).symm

theorem decode_of_encode {literal : Int32} {byte : UInt8}
    (h : (push literal).encode = .ok byte) : decode byte = push literal := by
  have hbase : pushBase = 127 := rfl
  simp only [encode] at h
  split at h
  next hfits =>
    obtain ⟨hlow, hhigh, hfree⟩ := hfits
    cases h
    have hvalue : (UInt8.ofNat (pushBase + literal.toInt).toNat).toNat =
        (pushBase + literal.toInt).toNat :=
      UInt8.toNat_ofNat_of_lt' (by simp only [UInt8.size]; omega)
    rw [decode_push, hvalue, Int.toNat_of_nonneg hlow, add_sub_cancel_left, Int32.ofInt_toInt]
    simp only [copyByte, haltByte, spawnByte, ne_eq, ← UInt8.toNat_inj, hvalue]
    have hone : (1 : UInt8).toNat = 1 := rfl
    have htwo : (2 : UInt8).toNat = 2 := rfl
    have hthree : (3 : UInt8).toNat = 3 := rfl
    omega
  next => cases h

/-- The row and the column of the tile of a highlighted operation. -/
def tile : Op → Nat × Nat
  | .copy => (12, 0)
  | .spawn => (14, 0)
  | .halt => (15, 0)
  | .push literal => (literal.toInt.natAbs, if literal.toInt < 0 then 1 else 0)

/-- A literal whose tile is in front of those of the other operations. -/
def Small : Op → Prop
  | .push literal => -11 ≤ literal.toInt ∧ literal.toInt ≤ 11
  | _ => True

theorem tile_column (op : Op) : op.tile.2 < 2 := by
  cases op with
  | copy | spawn | halt => decide
  | push literal => simp only [tile]; split <;> omega

theorem tile_inj {a b : Op} (ha : a.Small) (hb : b.Small) (h : a.tile = b.tile) : a = b := by
  cases a with
  | push x =>
    cases b with
    | push y =>
      -- the row is the magnitude and the column is the sign
      simp only [tile, Prod.mk.injEq] at h
      obtain ⟨hrow, hsign⟩ := h
      have hvalue : x.toInt = y.toInt := by split at hsign <;> split at hsign <;> omega
      rw [Int32.toInt_inj.mp hvalue]
    | copy | halt | spawn =>
      simp only [tile, Small, Prod.mk.injEq] at ha h
      omega
  | copy | halt | spawn =>
    cases b with
    | push y =>
      simp only [tile, Small, Prod.mk.injEq] at hb h
      omega
    | copy | halt | spawn => simp_all [tile]

end Op

theorem tileIndex_eq (byte : UInt8) (modified : Nat) :
    tileIndex byte modified = (Op.decode byte).tile.1 * 4 + (Op.decode byte).tile.2 +
      if modified = 0 then 2 else 0 := by
  unfold tileIndex
  cases Op.decode byte with
  | copy | halt | spawn | push => rfl

/-- A tile shows whether its cell is highlighted, whatever the operation is. -/
theorem modified_of_tile {a b : UInt8} {m n : Nat} (h : tileIndex a m = tileIndex b n) :
    m = 0 ↔ n = 0 := by
  have hca := (Op.decode a).tile_column
  have hcb := (Op.decode b).tile_column
  rw [tileIndex_eq, tileIndex_eq] at h
  split at h <;> split at h <;> omega

/-- Among small literals and the other operations, a tile shows which operation it is. -/
theorem byte_of_tile {a b : UInt8} {m n : Nat} (ha : (Op.decode a).Small)
    (hb : (Op.decode b).Small) (h : tileIndex a m = tileIndex b n) : a = b := by
  have hca := (Op.decode a).tile_column
  have hcb := (Op.decode b).tile_column
  have hdim := modified_of_tile h
  rw [tileIndex_eq, tileIndex_eq] at h
  simp only [hdim] at h
  have hrow : (Op.decode a).tile.1 = (Op.decode b).tile.1 := by omega
  have hcolumn : (Op.decode a).tile.2 = (Op.decode b).tile.2 := by omega
  exact Op.decode_inj (Op.tile_inj ha hb (Prod.ext hrow hcolumn))

/-- The operations that can come up under a configuration: halt cells anyway, the others if noise
writes them. -/
def Config.Yields (config : Config) (byte : UInt8) : Prop :=
  match Op.decode byte with
  | .copy => 0 < config.copySlice
  | .halt => True
  | .spawn => 0 < config.spawnSlice
  | .push literal => 0 < config.pushSlice ∧ -11 ≤ literal.toInt ∧ literal.toInt ≤ 11

theorem Config.Yields.small {config : Config} {byte : UInt8} (h : config.Yields byte) :
    (Op.decode byte).Small := by
  unfold Config.Yields at h
  cases hd : Op.decode byte with
  | copy | halt | spawn => trivial
  | push literal =>
    rw [hd] at h
    exact h.2

theorem Config.not_yields_zero (config : Config) : ¬config.Yields 0 := by
  have hzero : Op.decode 0 = .push (-127) := by decide
  unfold Config.Yields
  rw [hzero]
  rintro ⟨_, hlow, _⟩
  exact absurd hlow (by decide)

def NoiseKind.weight (config : Config) : NoiseKind → UInt32
  | .copy => config.copySlice
  | .halt => config.haltSlice
  | .push => config.pushSlice
  | .spawn => config.spawnSlice

/-- A number below the total selects a kind that has a weight. -/
theorem noiseKind_weight_pos {config : Config} {slice : Nat} (h : slice < config.totalSlice) :
    0 < (noiseKind config slice).weight config := by
  unfold Config.totalSlice at h
  simp only [UInt32.lt_iff_toNat_lt, UInt32.toNat_zero, noiseKind]
  split
  next => simp only [NoiseKind.weight]; omega
  next =>
    split
    next => simp only [NoiseKind.weight]; omega
    next =>
      split
      next => simp only [NoiseKind.weight]; omega
      next => simp only [NoiseKind.weight]; omega

/-- Noise is to fill the grid but has nothing to write. -/
def Config.Barren (config : Config) : Prop :=
  config.randomizeMemoryOnInitialize = true ∧ config.copySlice = 0 ∧ config.haltSlice = 0 ∧
    config.pushSlice = 0 ∧ config.spawnSlice = 0

theorem Config.barren_iff {config : Config} :
    config.Barren ↔ config.randomizeMemoryOnInitialize = true ∧ config.totalSlice = 0 := by
  unfold Config.Barren Config.totalSlice
  simp only [← UInt32.toNat_inj, UInt32.toNat_zero, Nat.add_eq_zero_iff, and_assoc]

/-- What every cell is in all that a configuration leads to. -/
def Cell.Native (config : Config) (cell : Cell) : Prop :=
  config.Barren ∧ cell.byte = 0 ∧ cell.lifespan = 0 ∨ ¬config.Barren ∧ config.Yields cell.byte

namespace Cell.Native

variable {config : Config} {cell origin : Cell}

theorem with_modified (modified : Nat) (h : cell.Native config) :
    Native config { cell with modified } := h

theorem count_down (h : cell.Native config) (hlife : cell.lifespan ≠ 0) :
    Native config { cell with lifespan := cell.lifespan - 1 } := by
  rcases h with ⟨_, _, hzero⟩ | h
  · exact absurd hzero hlife
  · exact Or.inr h

/-- Only a cell with a lifespan expires, and in a barren grid there is none. -/
theorem expire (h : cell.Native config) (hlife : cell.lifespan ≠ 0) (modified lifespan : Nat) :
    Native config { byte := haltByte, modified, lifespan } := by
  rcases h with ⟨_, _, hzero⟩ | ⟨hbarren, _⟩
  · exact absurd hzero hlife
  · exact Or.inr ⟨hbarren, trivial⟩

theorem overwrite (h : origin.Native config) (spawnLifeSpan : Nat) :
    (cell.overwrite origin.byte spawnLifeSpan).Native config := by
  rcases h with ⟨hbarren, hbyte, _⟩ | h
  · refine Or.inl ⟨hbarren, hbyte, ?_⟩
    simp only [Cell.overwrite, hbyte]
    rfl
  · exact Or.inr h

theorem byte_eq (ha : cell.Native config) (hb : origin.Native config)
    (h : tileIndex cell.byte cell.modified = tileIndex origin.byte origin.modified) :
    cell.byte = origin.byte := by
  rcases ha with ⟨hbarren, hzero, _⟩ | ⟨hfertile, hyields⟩
  · rcases hb with ⟨_, hzero', _⟩ | ⟨hfertile, _⟩
    · rw [hzero, hzero']
    · exact absurd hbarren hfertile
  · rcases hb with ⟨hbarren, _⟩ | ⟨_, hyields'⟩
    · exact absurd hbarren hfertile
    · exact byte_of_tile hyields.small hyields'.small h

end Cell.Native

def Memory.Native (config : Config) (memory : Memory) : Prop :=
  ∀ cell ∈ memory.cells, cell.Native config

section Writers

variable {config : Config} {memory next : Memory}

theorem copyCell_native {scene after : Scene} {source target : Nat}
    (h : scene.memory.Native config) (hcopy : copyCell config scene source target = .ok after) :
    after.memory.Native config := by
  obtain ⟨origin, old, memory, hs, ht, hm, hmem, _⟩ := copyCell_eq_ok hcopy
  have horigin := h origin (Memory.get_mem hs)
  have hcells := Memory.put_forall hm (horigin.overwrite _) h
  rw [hmem]
  split
  next => exact hcells
  next => exact hcells

theorem setOp_native {index spawnLifeSpan : Nat} {byte : UInt8} (h : memory.Native config)
    (hcell : ∀ modified lifespan, Cell.Native config { byte, modified, lifespan })
    (hw : memory.setOp index byte spawnLifeSpan = .ok next) : next.Native config := by
  obtain ⟨written, hput, hw⟩ := bind_eq_ok.mp hw
  cases hw
  have hcells : written.Native config := Memory.put_forall hput (hcell _ _) h
  exact hcells

theorem countDown_native {scene after : Scene} {origin : Nat} (h : scene.memory.Native config)
    (hcount : countDown config scene origin = .ok after) : after.memory.Native config := by
  obtain ⟨cell, hc, hcount⟩ := bind_eq_ok.mp hcount
  have hcell := h cell (Memory.get_mem hc)
  split at hcount
  next => cases hcount; exact h
  next hlife =>
    split at hcount
    next =>
      obtain ⟨memory, hm, hcount⟩ := bind_eq_ok.mp hcount
      cases hcount
      exact setOp_native h (hcell.expire hlife) hm
    next =>
      obtain ⟨memory, hm, hcount⟩ := bind_eq_ok.mp hcount
      cases hcount
      exact Memory.put_forall hm (hcell.count_down hlife) h

theorem highlightThread_native {thread : Thread} (h : memory.Native config)
    (hlight : Simulator.highlightThread memory thread = .ok next) : next.Native config := by
  obtain ⟨cell, _, hlight⟩ := bind_eq_ok.mp hlight
  split at hlight
  next => cases hlight; exact h
  next =>
    obtain ⟨written, hw, hlight⟩ := bind_eq_ok.mp hlight
    obtain ⟨old, hold, hw⟩ := bind_eq_ok.mp hw
    cases hlight
    have hcells : written.Native config :=
      Memory.put_forall hw ((h old (Memory.get_mem hold)).with_modified _) h
    exact hcells

/-- All cells are native but those that still wait for their first write. -/
def Memory.NativeBut (config : Config) (waiting : List Nat) (memory : Memory) : Prop :=
  ∀ i cell, memory.get i = .ok cell → i ∈ waiting ∨ cell.Native config

theorem Memory.NativeBut.all (h : memory.NativeBut config []) : memory.Native config := by
  intro cell hmem
  obtain ⟨i, hi⟩ := Array.mem_iff_getElem?.mp hmem
  exact (h i cell (Memory.get_eq_ok.mpr hi)).resolve_left List.not_mem_nil

theorem Memory.nativeBut_of_range {waiting : List Nat} (h : ∀ i < memory.size, i ∈ waiting) :
    memory.NativeBut config waiting := fun i _ hi => Or.inl (h i (Memory.get_lt hi))

theorem Memory.NativeBut.write {index spawnLifeSpan : Nat} {rest : List Nat} {byte : UInt8}
    (h : memory.NativeBut config (index :: rest)) (hbarren : ¬config.Barren)
    (hbyte : config.Yields byte) (hw : memory.setOp index byte spawnLifeSpan = .ok next) :
    next.NativeBut config rest := by
  obtain ⟨written, hput, hw⟩ := bind_eq_ok.mp hw
  cases hw
  intro i cell hi
  change written.get i = .ok cell at hi
  by_cases hsame : i = index
  · subst hsame
    rw [Memory.put_get_self hput] at hi
    cases hi
    exact Or.inr (Or.inr ⟨hbarren, hbyte⟩)
  · rw [Memory.put_get_other hsame hput] at hi
    rcases h i cell hi with hwait | hnative
    · exact Or.inl ((List.mem_cons.mp hwait).resolve_left hsame)
    · exact Or.inr hnative

theorem Memory.native_of_setOps {bytes : List UInt8} {spawnLifeSpan : Nat}
    (hbarren : ¬config.Barren) (hbytes : ∀ byte ∈ bytes, config.Yields byte)
    (hlength : memory.size ≤ bytes.length)
    (h : memory.setOps 0 bytes spawnLifeSpan = .ok next) : next.Native config := by
  have hstart : memory.NativeBut config (bytes.zipIdx.map fun entry => 0 + entry.2) := by
    refine Memory.nativeBut_of_range fun i hi => ?_
    have hlt : i < bytes.length := Nat.lt_of_lt_of_le hi hlength
    have hmem : (bytes[i], i) ∈ bytes.zipIdx :=
      List.mk_mem_zipIdx_iff_getElem?.mpr (List.getElem?_eq_getElem hlt)
    exact List.mem_map.mpr ⟨_, hmem, Nat.zero_add i⟩
  have hentries : ∀ entry ∈ bytes.zipIdx, config.Yields entry.1 := by
    intro entry hmem
    exact hbytes entry.1 (List.mem_of_getElem? (List.mem_zipIdx_iff_getElem?.mp hmem))
  have hlast := foldlM_preserves
    (P := fun waiting (m : Memory) =>
      m.NativeBut config (waiting.map fun entry => 0 + entry.2) ∧
        ∀ entry ∈ waiting, config.Yields entry.1)
    (fun entry rest a b ⟨ha, hyields⟩ hb =>
      ⟨Memory.NativeBut.write ha hbarren (hyields entry (by simp)) hb,
        fun other hmem => hyields other (List.mem_cons_of_mem entry hmem)⟩) ⟨hstart, hentries⟩ h
  exact hlast.1.all

theorem native_kept (config : Config) :
    Mirror.Kept config (fun scene => scene.memory.Native config) where
  copy h hc := copyCell_native h hc
  countDown h hc := countDown_native h hc
  mourn h := h
  highlight h hl := highlightThread_native h hl

end Writers

/-- A command that puts no cell of its own on the grid. -/
def Command.Passive : Command → Prop
  | .write _ _ => False
  | .replace _ _ => False
  | _ => True

instance : DecidablePred Command.Passive
  | .write _ _ | .replace _ _ => inferInstanceAs (Decidable False)
  | .behave _ | .cycle | .spawn _ _ | .finishFrame | .clearDirty | .print =>
    inferInstanceAs (Decidable True)

namespace Simulator

variable {σ : Type} [RandomSource σ] {layout : Layout} {sim next : Simulator σ}

/-- Every cell holds what the configuration leads to. -/
def Native (sim : Simulator σ) : Prop := sim.memory.Native sim.config

omit [RandomSource σ] in
theorem with_source_native (source : σ) (h : sim.Native) : Native { sim with source } := h

omit [RandomSource σ] in
theorem spawnThread_native {ip : Nat} {reversed : Bool} (h : sim.Native)
    (hs : sim.spawnThread ip reversed = .ok next) : next.Native := by
  unfold spawnThread at hs
  split at hs
  next => cases hs
  next =>
    obtain ⟨tally, _, hs⟩ := bind_eq_ok.mp hs
    cases hs
    exact h

theorem injectThread_native (h : sim.Native) (hi : sim.injectThread = .ok next) : next.Native := by
  obtain ⟨⟨ip, source⟩, _, hi⟩ := bind_eq_ok.mp hi
  simp only at hi
  split at hi
  next => exact spawnThread_native (with_source_native _ h) hi
  next => exact spawnThread_native (with_source_native _ h) hi

theorem settle_native (h : sim.Native) (hs : sim.settle = .ok next) : next.Native := by
  obtain ⟨hconfig, hcells⟩ := (native_kept sim.config).settle h hs
  unfold Native
  rw [hconfig]
  exact hcells

/-- What a lawful source writes has a weight. -/
theorem noiseByte_yields [LawfulRandomSource σ] {config : Config} {source rest : σ} {byte : UInt8}
    (h : noiseByte config source = .ok (byte, rest)) : config.Yields byte := by
  obtain ⟨⟨slice, drawn⟩, hd, h⟩ := bind_eq_ok.mp h
  have hweight := noiseKind_weight_pos (LawfulRandomSource.below_lt (draw_eq_ok.mp hd))
  simp only at h
  split at h
  next hkind => cases h; rw [hkind] at hweight; exact hweight
  next hkind => cases h; exact trivial
  next hkind =>
    obtain ⟨⟨literal, last⟩, hl, h⟩ := bind_eq_ok.mp h
    obtain ⟨written, hw, h⟩ := bind_eq_ok.mp h
    cases h
    obtain ⟨hlow, hhigh⟩ := LawfulRandomSource.within_le (draw_eq_ok.mp hl)
    have hradius : noiseRadius = 11 := rfl
    have hvalue : (Int32.ofInt literal).toInt = literal :=
      Int32.toInt_ofInt_of_le (by omega) (by omega)
    rw [hkind] at hweight
    simp only at hw
    unfold Config.Yields
    rw [Op.decode_of_encode hw]
    exact ⟨hweight, by omega, by omega⟩
  next hkind => cases h; rw [hkind] at hweight; exact hweight

variable [LawfulRandomSource σ]

theorem randomizeCell_native {index : Nat} (h : sim.Native)
    (hn : sim.randomizeCell index = .ok next) : next.Native := by
  unfold randomizeCell at hn
  split at hn
  next => cases hn; exact h
  next hweights =>
    obtain ⟨⟨byte, rest⟩, hb, hn⟩ := bind_eq_ok.mp hn
    obtain ⟨memory, hm, hn⟩ := bind_eq_ok.mp hn
    cases hn
    have hbarren : ¬sim.config.Barren := fun hbarren => hweights (Config.barren_iff.mp hbarren).2
    exact setOp_native h (fun _ _ => Or.inr ⟨hbarren, noiseByte_yields hb⟩) hm

theorem addNoise_native (h : sim.Native) (hn : sim.addNoise = .ok next) : next.Native := by
  obtain ⟨⟨index, source⟩, _, hn⟩ := bind_eq_ok.mp hn
  exact randomizeCell_native (with_source_native source h) hn

theorem cycle_native (h : sim.Native) (hc : sim.cycle = .ok next) : next.Native := by
  rw [cycle_eq] at hc
  obtain ⟨noisy, hnoise, hc⟩ := bind_eq_ok.mp hc
  obtain ⟨fed, hfed, hc⟩ := bind_eq_ok.mp hc
  have hnoisy := repeatTimes_preserves (fun _ _ => addNoise_native) h hnoise
  exact settle_native (repeatTimes_preserves (fun _ _ => injectThread_native) hnoisy hfed) hc

theorem perform_native {command : Command} (wf : sim.WellFormed layout) (h : sim.Native)
    (hpassive : command.Passive) (hp : sim.perform command = .ok next) : next.Native := by
  cases command with
  | behave ms =>
    obtain ⟨⟨after, ran⟩, hb, hp⟩ := bind_eq_ok.mp hp
    cases hp
    rw [behave_eq ms (wf.config_eq ▸ wf.progress_lt)] at hb
    obtain ⟨last, hl, hb⟩ := bind_eq_ok.mp hb
    cases hb
    have hlast := repeatTimes_preserves (fun _ _ => cycle_native) h hl
    unfold Native lapse
    split
    next => exact hlast
    next => exact hlast
  | cycle => exact cycle_native h hp
  | spawn ip reversed => exact spawnThread_native h hp
  | finishFrame =>
    cases hp
    unfold finishFrame
    split
    next =>
      intro cell hmem
      obtain ⟨old, hold, rfl⟩ := Array.mem_map.mp hmem
      exact (h old hold).with_modified _
    next => exact h
  | clearDirty => cases hp; exact h
  | print =>
    obtain ⟨text, _, hp⟩ := bind_eq_ok.mp hp
    cases hp
    exact h
  | write index byte => exact hpassive.elim
  | replace index cell => exact hpassive.elim

omit [RandomSource σ] [LawfulRandomSource σ] in
theorem blank_native {source : σ} (hbarren : layout.config.Barren) :
    (layout.blank source).Native := by
  intro cell hmem
  rw [(Array.mem_replicate.mp hmem).2]
  exact Or.inl ⟨hbarren, rfl, rfl⟩

/-- Filling the grid meets every cell, unless noise has nothing to write. -/
theorem fill_native {source : σ} (h : fill (layout.blank source) = .ok sim) : sim.Native := by
  unfold fill at h
  split at h
  next hrandom =>
    by_cases hweights : layout.config.totalSlice = 0
    -- noise writes nothing, so all cells stay as they are in the blank grid
    · exact foldlM_preserves (P := fun _ a => a.Native) (fun _ _ _ _ => randomizeCell_native)
        (blank_native (Config.barren_iff.mpr ⟨hrandom, hweights⟩)) h
    · have hbarren : ¬layout.config.Barren := fun hbarren => hweights (Config.barren_iff.mp hbarren).2
      -- at first every cell waits, and the fold meets one after the other
      have hstart : (layout.blank source).memory.NativeBut layout.config
          (List.range (layout.blank source).size) :=
        Memory.nativeBut_of_range fun i hi => List.mem_range.mpr hi
      obtain ⟨hconfig, hfilled⟩ := foldlM_preserves
        (P := fun waiting a => a.config = layout.config ∧ a.memory.NativeBut layout.config waiting)
        (fun index rest a b ⟨hconfig, ha⟩ hb => by
          unfold randomizeCell at hb
          rw [hconfig, if_neg hweights] at hb
          obtain ⟨⟨byte, drawn⟩, hbyte, hb⟩ := bind_eq_ok.mp hb
          obtain ⟨memory, hm, hb⟩ := bind_eq_ok.mp hb
          cases hb
          exact ⟨rfl, ha.write hbarren (noiseByte_yields hbyte) hm⟩) ⟨rfl, hstart⟩ h
      unfold Native
      rw [hconfig]
      exact hfilled.all
  next hhalts =>
    have hsize : (layout.blank source).size = layout.size := (blank_wellFormed layout source).size_eq
    rw [hsize] at h
    obtain ⟨memory, hm, rfl⟩ := editMemory_eq_ok h
    refine Memory.native_of_setOps (fun hbarren => hhalts hbarren.1) ?_ ?_ hm
    · intro byte hmem
      rw [(List.mem_replicate.mp hmem).2]
      trivial
    · rw [List.length_replicate, ← hsize]
      exact Nat.le_refl _

theorem create_native {source : σ}
    (h : create layout.rows layout.columns layout.config source = .ok sim) : sim.Native := by
  obtain ⟨filled, hf, rfl⟩ := create_eq_ok h
  have hfilled : filled.Native := fill_native hf
  exact hfilled

/-- Cells hold halt, what noise may write or, in a barren grid, zero. Among these no two share a
tile, although the literals 12, 14 and 15 have the tiles of copy, spawn and halt. -/
theorem reached_bytes_native {rows columns : Nat} {config : Config} {source : σ}
    {commands : List Command} (hc : create rows columns config source = .ok sim)
    (hpassive : ∀ command ∈ commands, command.Passive) (hr : sim.run commands = .ok next) :
    (∀ cell ∈ next.memory.cells, config.Yields cell.byte ∨ cell.byte = 0) ∧
      (∀ cell ∈ next.memory.cells, cell.byte = 0 → config.Barren) ∧
      (config.Barren → ∀ cell ∈ next.memory.cells, cell.byte = 0) ∧
      (∀ a ∈ next.memory.cells, ∀ b ∈ next.memory.cells,
        tileIndex a.byte a.modified = tileIndex b.byte b.modified →
          a.byte = b.byte ∧ (a.modified = 0 ↔ b.modified = 0)) ∧
      ∀ m, tileIndex 139 m = tileIndex copyByte m ∧ tileIndex 141 m = tileIndex spawnByte m ∧
        tileIndex 142 m = tileIndex haltByte m := by
  obtain ⟨layout, rfl, rfl, rfl⟩ := create_layout hc
  have wf := (create_wellFormed hc).1
  have hnative := run_preserves (P := Native)
    (fun command hmem a b wfa ha hb => perform_native wfa ha (hpassive command hmem) hb)
    wf (create_native hc) hr
  have hconfig : next.config = layout.config := (run_ledger wf hr).wellFormed.config_eq
  unfold Native at hnative
  rw [hconfig] at hnative
  refine ⟨?_, ?_, ?_, ?_, ?_⟩
  · intro cell hmem
    rcases hnative cell hmem with ⟨_, hzero, _⟩ | ⟨_, hyields⟩
    · exact Or.inr hzero
    · exact Or.inl hyields
  · intro cell hmem hzero
    rcases hnative cell hmem with ⟨hbarren, _⟩ | ⟨_, hyields⟩
    · exact hbarren
    · rw [hzero] at hyields
      exact absurd hyields (Config.not_yields_zero layout.config)
  · intro hbarren cell hmem
    rcases hnative cell hmem with ⟨_, hzero, _⟩ | ⟨hfertile, _⟩
    · exact hzero
    · exact absurd hbarren hfertile
  · intro a ha b hb htile
    exact ⟨(hnative a ha).byte_eq (hnative b hb) htile, modified_of_tile htile⟩
  · intro m
    exact ⟨rfl, rfl, rfl⟩

/-- Noise without halt cells, which come up only where a spawn cell expires. -/
def sown : Config :=
  { msPerCycle := 10
    maxStackSize := 4
    maxThreadCount := 4
    randomNoisePerCycle := 1
    newThreadsPerCycle := 1
    spawnLifeSpan := 1
    copySlice := 1
    pushSlice := 2
    spawnSlice := 1
    randomizeMemoryOnInitialize := true }

def sownWords : Script :=
  ⟨[0, 0x4000000000000000, 0xde9bd37b00000000, 0xc000000000000000, 0x8000000000000000, 0,
    0, 0x4000000000000000, 0x8000000000000000, 0,
    0, 0x8000000000000000, 0xc000000000000000, 0x8000000000000000,
    0xc000000000000000, 0xc000000000000000, 0]⟩

theorem sown_bytes_native :
    ∃ start last : Simulator Script, create 2 2 sown sownWords = .ok start ∧
      start.run [.behave 35, .spawn 1 true, .cycle, .finishFrame] = .ok last ∧
      start.memory.bytes = [copyByte, 136, spawnByte, 116] ∧
      last.memory.bytes = [copyByte, 136, haltByte, haltByte] ∧
      (∀ cell ∈ last.memory.cells, sown.Yields cell.byte ∨ cell.byte = 0) ∧
      (∀ a ∈ last.memory.cells, ∀ b ∈ last.memory.cells,
        tileIndex a.byte a.modified = tileIndex b.byte b.modified →
          a.byte = b.byte ∧ (a.modified = 0 ↔ b.modified = 0)) := by
  have hstart : (create 2 2 sown sownWords).map (fun sim => sim.memory.bytes) =
      .ok [copyByte, 136, spawnByte, 116] := by decide +kernel
  obtain ⟨start, hc, hbytes⟩ := map_eq_ok.mp hstart
  have hrun : ((create 2 2 sown sownWords).toOption.map fun sim =>
      (sim.run [.behave 35, .spawn 1 true, .cycle, .finishFrame]).map
        fun last => last.memory.bytes) =
      some (.ok [copyByte, 136, haltByte, haltByte]) := by decide +kernel
  rw [hc] at hrun
  obtain ⟨last, hr, hlast⟩ := map_eq_ok.mp (Option.some.inj hrun)
  obtain ⟨hyields, _, _, htiles, _⟩ := reached_bytes_native hc (by decide) hr
  exact ⟨start, last, hc, hr, hbytes, hlast, hyields, htiles⟩

end Simulator

end ThreadSoup
