import Mathlib.Algebra.BigOperators.Fin
import Mathlib.Data.List.Induction
import ThreadSoup.Proofs.Provenance
import ThreadSoup.Proofs.Report

namespace ThreadSoup

namespace Op

theorem decode_eq_iff {a b : UInt8} : decode a = decode b ↔ a.toNat = b.toNat :=
  ⟨fun h => congrArg UInt8.toNat (decode_inj h), fun h => congrArg decode (UInt8.toNat_inj.mp h)⟩

theorem decode_eq_copy {byte : UInt8} : decode byte = .copy ↔ byte.toNat = 1 :=
  decode_eq_iff (b := copyByte)

theorem decode_eq_halt {byte : UInt8} : decode byte = .halt ↔ byte.toNat = 2 :=
  decode_eq_iff (b := haltByte)

theorem decode_eq_spawn {byte : UInt8} : decode byte = .spawn ↔ byte.toNat = 3 :=
  decode_eq_iff (b := spawnByte)

/-- No literal looks like another operation or like the end of a line. -/
theorem glyph_push (literal : Int32) : (push literal).glyph ∉ ['C', '.', 'S', '\n'] := by
  -- only a letter or a digit depends on the literal
  have hletters : ∀ n < 106, 97 ≤ n → Char.ofNat n ∉ ['C', '.', 'S', '\n'] := by decide
  have hdigits : ∀ n < 58, 48 ≤ n → Char.ofNat n ∉ ['C', '.', 'S', '\n'] := by decide
  simp only [glyph]
  split
  next => decide
  next hlow =>
    split
    next hneg => exact hletters _ (by omega) (by omega)
    next hneg =>
      split
      next hhigh => exact hdigits _ (by omega) (by omega)
      next => decide

/-- An operation without a literal is known by its glyph. -/
theorem glyph_eq_iff {op fixed : Op} (h : fixed = .copy ∨ fixed = .halt ∨ fixed = .spawn) :
    op.glyph = fixed.glyph ↔ op = fixed := by
  have hglyph : fixed.glyph ∈ ['C', '.', 'S', '\n'] := by rcases h with rfl | rfl | rfl <;> decide
  constructor
  · intro heq
    cases op with
    | push literal => exact absurd (heq ▸ hglyph) (glyph_push literal)
    | copy | halt | spawn =>
      revert heq
      rcases h with rfl | rfl | rfl <;> decide
  · rintro rfl
    rfl

theorem glyph_ne_newline (op : Op) : op.glyph ≠ '\n' := by
  cases op with
  | push literal =>
    intro heq
    exact glyph_push literal (by simp [heq])
  | copy | halt | spawn => decide

end Op

section Histogram

theorem byteHistogram_snoc (cells : List Cell) (cell : Cell) :
    byteHistogram (cells ++ [cell]) = (byteHistogram cells).modify cell.byte.toNat (· + 1) := by
  simp [byteHistogram, List.foldl_append]

theorem byteHistogram_size (cells : List Cell) : (byteHistogram cells).size = 256 := by
  induction cells using List.reverseRecOn with
  | nil => exact Array.size_replicate
  | append_singleton cells cell ih => rw [byteHistogram_snoc, Array.size_modify, ih]

theorem byteHistogram_get (cells : List Cell) {byte : Nat} (h : byte < 256) :
    (byteHistogram cells)[byte]? = some (cells.countP (·.byte.toNat = byte)) := by
  induction cells using List.reverseRecOn with
  | nil => simp [byteHistogram, h]
  | append_singleton cells cell ih =>
    rw [byteHistogram_snoc, Array.getElem?_modify, ih, List.countP_append, List.countP_singleton]
    by_cases hbyte : cell.byte.toNat = byte
    · simp [hbyte]
    · simp [hbyte]

theorem OpCensus.ofCells_snoc (cells : List Cell) (cell : Cell) :
    OpCensus.ofCells (cells ++ [cell]) = (OpCensus.ofCells cells).add cell.op := by
  simp [OpCensus.ofCells, List.foldl_append]

theorem OpCensus.ofCells_eq (cells : List Cell) :
    OpCensus.ofCells cells =
      { copy := cells.countP (·.byte.toNat = 1)
        halt := cells.countP (·.byte.toNat = 2)
        spawn := cells.countP (·.byte.toNat = 3)
        push := cells.countP (·.byte.toNat ∉ [1, 2, 3]) } := by
  induction cells using List.reverseRecOn with
  | nil => rfl
  | append_singleton cells cell ih =>
    rw [ofCells_snoc, ih]
    simp only [List.countP_append, List.countP_singleton]
    cases hop : cell.op with
    | copy => simp [add, Op.decode_eq_copy.mp hop]
    | halt => simp [add, Op.decode_eq_halt.mp hop]
    | spawn => simp [add, Op.decode_eq_spawn.mp hop]
    | push literal =>
      have hcopy : cell.byte.toNat ≠ 1 := fun h => by
        rw [Cell.op, Op.decode_eq_copy.mpr h] at hop
        cases hop
      have hhalt : cell.byte.toNat ≠ 2 := fun h => by
        rw [Cell.op, Op.decode_eq_halt.mpr h] at hop
        cases hop
      have hspawn : cell.byte.toNat ≠ 3 := fun h => by
        rw [Cell.op, Op.decode_eq_spawn.mpr h] at hop
        cases hop
      simp [add, hcopy, hhalt, hspawn]

theorem sum_countP_byte (cells : List Cell) (bytes : Finset Nat) :
    ∑ byte ∈ bytes, cells.countP (·.byte.toNat = byte) = cells.countP (·.byte.toNat ∈ bytes) := by
  induction cells with
  | nil => simp
  | cons cell cells ih => simp [List.countP_cons, Finset.sum_add_distrib, ih]

theorem sum_byteHistogram (cells : List Cell) {bytes : Finset Nat}
    (h : bytes ⊆ Finset.range 256) :
    ∑ byte ∈ bytes, (byteHistogram cells).getD byte 0 = cells.countP (·.byte.toNat ∈ bytes) := by
  rw [← sum_countP_byte]
  refine Finset.sum_congr rfl ?_
  intro byte hmem
  rw [Array.getD_eq_getD_getElem?, byteHistogram_get cells (Finset.mem_range.mp (h hmem))]
  rfl

theorem byteHistogram_push (cells : List Cell) :
    (OpCensus.ofCells cells).push =
      ∑ byte ∈ Finset.range 256 \ {1, 2, 3}, (byteHistogram cells).getD byte 0 := by
  rw [sum_byteHistogram cells Finset.sdiff_subset, OpCensus.ofCells_eq]
  refine List.countP_congr ?_
  intro cell _
  simpa using fun _ _ _ => cell.byte.toNat_lt

theorem byteHistogram_sum (cells : List Cell) : (byteHistogram cells).sum = cells.length := by
  have hlength : (byteHistogram cells).toList.length = 256 := byteHistogram_size cells
  calc (byteHistogram cells).sum
      = ∑ i : Fin (byteHistogram cells).toList.length, (byteHistogram cells).toList[i.1] := by
        rw [Fin.sum_univ_getElem, Array.sum_toList]
    _ = ∑ byte ∈ Finset.range (byteHistogram cells).toList.length,
          (byteHistogram cells).getD byte 0 := by
        rw [Finset.sum_range]
        exact Finset.sum_congr rfl fun i _ => by simp
    _ = cells.countP (·.byte.toNat ∈ Finset.range 256) := by
        rw [hlength]
        exact sum_byteHistogram cells (Finset.Subset.refl _)
    _ = cells.length := by
        rw [List.countP_eq_length]
        intro cell _
        simpa using cell.byte.toNat_lt

end Histogram

section Layout

/-- The characters of some cells, the first of which stands at a given place. -/
def printCells (columns : Nat) (cells : List Cell) (start : Nat) : List Char :=
  (cells.zipIdx start).flatMap fun (cell, i) =>
    if (i + 1) % columns = 0 then [cell.op.glyph, '\n'] else [cell.op.glyph]

variable {columns : Nat}

theorem printCells_append (first second : List Cell) (start : Nat) :
    printCells columns (first ++ second) start =
      printCells columns first start ++ printCells columns second (start + first.length) := by
  rw [printCells, List.zipIdx_append, List.flatMap_append]
  rfl

/-- Before the end of a row no line ends. -/
theorem printCells_inside {cells : List Cell} {start : Nat}
    (h : ∀ i < cells.length, (start + i + 1) % columns ≠ 0) :
    printCells columns cells start = cells.map (·.op.glyph) := by
  induction cells generalizing start with
  | nil => rfl
  | cons cell cells ih =>
    have hfirst : (start + 1) % columns ≠ 0 := h 0 (by simp)
    have hrest : printCells columns cells (start + 1) = cells.map (·.op.glyph) := by
      apply ih
      intro i hi
      have := h (i + 1) (by simpa using hi)
      rwa [show start + (i + 1) + 1 = start + 1 + i + 1 by omega] at this
    simp only [printCells, List.zipIdx_cons, List.flatMap_cons, if_neg hfirst]
    exact congrArg (cell.op.glyph :: ·) hrest

theorem printCells_row {cells : List Cell} (row : Nat) (hpos : 0 < columns)
    (hlength : cells.length = columns) :
    printCells columns cells (row * columns) = cells.map (·.op.glyph) ++ ['\n'] := by
  obtain rfl | ⟨init, last, rfl⟩ := cells.eq_nil_or_concat
  · simp at hlength
    omega
  · rw [List.concat_eq_append] at hlength ⊢
    rw [List.length_append, List.length_singleton] at hlength
    rw [printCells_append, printCells_inside, List.map_append, List.append_assoc]
    · have hend : (row * columns + init.length + 1) % columns = 0 := by
        rw [Nat.add_assoc, hlength, ← Nat.succ_mul, Nat.mul_mod_left]
      simp [printCells, hend]
    · intro i hi
      rw [Nat.add_assoc, Nat.mul_add_mod', Nat.mod_eq_of_lt (by omega)]
      omega

/-- Whole rows are lines, one after the other. -/
theorem printCells_rows {cells : List Cell} {rows : Nat} (row : Nat) (hpos : 0 < columns)
    (hlength : cells.length = rows * columns) :
    printCells columns cells (row * columns) = (List.range rows).flatMap fun r =>
      ((cells.drop (r * columns)).take columns).map (·.op.glyph) ++ ['\n'] := by
  induction rows generalizing cells row with
  | zero =>
    rw [Nat.zero_mul, List.length_eq_zero_iff] at hlength
    rw [hlength]
    rfl
  | succ rows ih =>
    rw [Nat.succ_mul] at hlength
    -- the first row is cut off, and the rest starts at the next multiple of the columns
    have htake : (cells.take columns).length = columns := by
      rw [List.length_take]
      omega
    have hdrop : (cells.drop columns).length = rows * columns := by
      rw [List.length_drop]
      omega
    have hrest := ih (row + 1) hdrop
    calc printCells columns cells (row * columns)
        = printCells columns (cells.take columns) (row * columns) ++
            printCells columns (cells.drop columns) ((row + 1) * columns) := by
          rw [Nat.succ_mul]
          nth_rewrite 1 [← List.take_append_drop columns cells]
          rw [printCells_append, htake]
      _ = _ := by
          rw [printCells_row row hpos htake, hrest, List.range_succ_eq_map, List.flatMap_cons,
            List.flatMap_map]
          simp [Nat.succ_mul, Nat.add_comm]

/-- Apart from the ends of lines, a character is printed once for each cell that it stands for. -/
theorem count_printCells {char : Char} (hchar : char ≠ '\n') (cells : List Cell) (start : Nat) :
    (printCells columns cells start).count char = cells.countP (·.op.glyph = char) := by
  induction cells generalizing start with
  | nil => rfl
  | cons cell cells ih =>
    have hrest : printCells columns (cell :: cells) start =
        printCells columns [cell] start ++ printCells columns cells (start + 1) :=
      printCells_append [cell] cells start
    have hfirst : (printCells columns [cell] start).count char =
        if cell.op.glyph = char then 1 else 0 := by
      simp only [printCells, List.zipIdx_cons, List.zipIdx_nil, List.flatMap_cons, List.flatMap_nil,
        List.append_nil]
      split
      next => simp [List.count_cons, hchar.symm]
      next => simp [List.count_cons]
    rw [hrest, List.count_append, hfirst, ih, List.countP_cons, Nat.add_comm]
    simp

end Layout

namespace Memory

variable {memory : Memory}

/-- The characters of a row. -/
def line (memory : Memory) (row : Nat) : List Char :=
  ((memory.cells.toList.drop (row * memory.columns)).take memory.columns).map (·.op.glyph)

theorem newline_notMem_line (row : Nat) : '\n' ∉ memory.line row := by
  intro hmem
  obtain ⟨cell, _, hglyph⟩ := List.mem_map.mp hmem
  exact cell.op.glyph_ne_newline hglyph

theorem toText_toList (memory : Memory) :
    memory.toText.toList = printCells memory.columns memory.cells.toList 0 := String.toList_ofList

namespace Rectangular

theorem toText_lines (rect : memory.Rectangular) :
    memory.toText.toList = ((List.range memory.rows).map memory.line).flatMap (· ++ ['\n']) := by
  rw [toText_toList, List.flatMap_map]
  have hrows := printCells_rows 0 rect.columns_pos rect.size_eq
  rw [Nat.zero_mul] at hrows
  exact hrows

variable {row column : Nat}

theorem place_lt (rect : memory.Rectangular) (hrow : row < memory.rows)
    (hcolumn : column < memory.columns) : row * memory.columns + column < memory.size := by
  have hnext : (row + 1) * memory.columns ≤ memory.rows * memory.columns :=
    Nat.mul_le_mul_right _ hrow
  rw [Nat.succ_mul] at hnext
  rw [rect.size_eq]
  omega

theorem line_length (rect : memory.Rectangular) (hrow : row < memory.rows) :
    (memory.line row).length = memory.columns := by
  have hlast := rect.place_lt hrow (Nat.sub_one_lt_of_lt rect.columns_pos)
  have hpos := rect.columns_pos
  have hsize : memory.cells.toList.length = memory.size := rfl
  rw [line, List.length_map, List.length_take, List.length_drop]
  omega

theorem line_get (rect : memory.Rectangular) (hrow : row < memory.rows)
    (hcolumn : column < memory.columns) :
    ∃ cell, memory.get (row * memory.columns + column) = .ok cell ∧
      (memory.line row)[column]? = some cell.op.glyph := by
  have hplace := rect.place_lt hrow hcolumn
  refine ⟨memory.cells[row * memory.columns + column], dif_pos hplace, ?_⟩
  rw [line, List.getElem?_map, List.getElem?_take_of_lt hcolumn, List.getElem?_drop]
  simp [Array.getElem?_eq_getElem hplace]

end Rectangular

/-- The cells with an operation other than a literal can be counted in the text. -/
theorem count_toText {byte : UInt8} (h : byte = copyByte ∨ byte = haltByte ∨ byte = spawnByte)
    (memory : Memory) :
    memory.toText.toList.count (Op.decode byte).glyph =
      memory.cells.toList.countP (·.byte.toNat = byte.toNat) := by
  have hfixed : Op.decode byte = .copy ∨ Op.decode byte = .halt ∨ Op.decode byte = .spawn := by
    rcases h with rfl | rfl | rfl <;> decide
  rw [toText_toList, count_printCells (Op.glyph_ne_newline _)]
  simp only [Op.glyph_eq_iff hfixed, Cell.op, Op.decode_eq_iff]

end Memory

namespace Simulator

variable {σ : Type} [RandomSource σ]

/-- Every grid that a host can reach is printed as its rows, a line for each of them and a character
for each cell. The copy, halt and spawn cells can be counted in the text as well as in the census,
and the census of any cells can be read off their histogram. -/
theorem text_agrees_with_census :
    (∀ (rows columns : Nat) (config : Config) (source : σ) (start sim : Simulator σ)
      (commands : List Command),
      create rows columns config source = .ok start → start.run commands = .ok sim →
        sim.memory.Rectangular) ∧
    (∀ sim : Simulator σ, sim.memory.Rectangular →
      ∃ (text : String) (lines : List (List Char)),
        sim.print = .ok text ∧ text.toList = lines.flatMap (· ++ ['\n']) ∧
        lines.length = sim.memory.rows ∧
        (∀ line ∈ lines, line.length = sim.memory.columns ∧ '\n' ∉ line) ∧
        (∀ row < sim.memory.rows, ∀ column < sim.memory.columns, ∃ chars cell,
          lines[row]? = some chars ∧
          sim.memory.get (row * sim.memory.columns + column) = .ok cell ∧
          chars[column]? = some cell.op.glyph) ∧
        text.toList.count 'C' = (OpCensus.ofCells sim.memory.cells.toList).copy ∧
        text.toList.count '.' = (OpCensus.ofCells sim.memory.cells.toList).halt ∧
        text.toList.count 'S' = (OpCensus.ofCells sim.memory.cells.toList).spawn) ∧
    ∀ cells : List Cell,
      (byteHistogram cells).size = 256 ∧
      (byteHistogram cells)[1]? = some (OpCensus.ofCells cells).copy ∧
      (byteHistogram cells)[2]? = some (OpCensus.ofCells cells).halt ∧
      (byteHistogram cells)[3]? = some (OpCensus.ofCells cells).spawn ∧
      (OpCensus.ofCells cells).push =
        ∑ byte ∈ Finset.range 256 \ {1, 2, 3}, (byteHistogram cells).getD byte 0 ∧
      (OpCensus.ofCells cells).total = cells.length ∧ (byteHistogram cells).sum = cells.length := by
  refine ⟨?_, ?_, ?_⟩
  · intro rows columns config source start sim commands hc hr
    obtain ⟨layout, rfl, rfl, rfl⟩ := create_layout hc
    exact (run_ledger (create_wellFormed hc).1 hr).wellFormed.rectangular
  · intro sim rect
    refine ⟨sim.memory.toText, (List.range sim.memory.rows).map sim.memory.line, rect.print_eq,
      rect.toText_lines, by simp, ?_, ?_, ?_⟩
    · intro line hmem
      obtain ⟨row, hrow, rfl⟩ := List.mem_map.mp hmem
      exact ⟨rect.line_length (List.mem_range.mp hrow), Memory.newline_notMem_line row⟩
    · intro row hrow column hcolumn
      obtain ⟨cell, hget, hglyph⟩ := rect.line_get hrow hcolumn
      exact ⟨sim.memory.line row, cell, by simp [hrow], hget, hglyph⟩
    · rw [OpCensus.ofCells_eq]
      exact ⟨Memory.count_toText (Or.inl rfl) sim.memory,
        Memory.count_toText (Or.inr (Or.inl rfl)) sim.memory,
        Memory.count_toText (Or.inr (Or.inr rfl)) sim.memory⟩
  · intro cells
    rw [OpCensus.ofCells_total, ← byteHistogram_push, OpCensus.ofCells_eq]
    exact ⟨byteHistogram_size cells, byteHistogram_get cells (by decide),
      byteHistogram_get cells (by decide), byteHistogram_get cells (by decide), rfl, rfl,
      byteHistogram_sum cells⟩

/-- Two rows of halt cells. -/
def twoRows : Simulator Script :=
  { config := { msPerCycle := 10 }
    memory :=
      { rows := 2
        columns := 3
        cells := Array.replicate 6 { byte := haltByte, modified := 1 }
        dirty := true }
    threads := []
    effects := {}
    progress := 0
    cycles := 0
    tally := {}
    source := ⟨[]⟩ }

/-- Literals outside the digits and the letters are printed by their sign. -/
theorem twoRows_printed :
    create 2 3 twoRows.config twoRows.source = .ok twoRows ∧
      ∃ sim, twoRows.run [.write 0 copyByte, .write 1 116, .write 2 126, .write 4 spawnByte,
          .write 5 138] = .ok sim ∧
        sim.memory.Rectangular ∧ sim.print = .ok "C-a\n.S+\n" ∧
        "C-a\n.S+\n".toList.count 'C' = (OpCensus.ofCells sim.memory.cells.toList).copy ∧
        "C-a\n.S+\n".toList.count '.' = (OpCensus.ofCells sim.memory.cells.toList).halt ∧
        "C-a\n.S+\n".toList.count 'S' = (OpCensus.ofCells sim.memory.cells.toList).spawn ∧
        (byteHistogram sim.memory.cells.toList).sum = 6 := by
  have hc : create 2 3 twoRows.config twoRows.source = .ok twoRows := by rfl
  have hrun : (twoRows.run [.write 0 copyByte, .write 1 116, .write 2 126, .write 4 spawnByte,
      .write 5 138]).map (fun sim => (sim.print, sim.size)) = .ok (.ok "C-a\n.S+\n", 6) := by
    decide +kernel
  obtain ⟨sim, hr, hshown⟩ := map_eq_ok.mp hrun
  obtain ⟨hprint, hsize⟩ := Prod.mk.inj hshown
  obtain ⟨hreached, hprinted, hcounted⟩ := text_agrees_with_census (σ := Script)
  have rect := hreached 2 3 twoRows.config twoRows.source twoRows sim _ hc hr
  obtain ⟨text, _, htext, _, _, _, _, hcopy, hhalt, hspawn⟩ := hprinted sim rect
  obtain ⟨_, _, _, _, _, _, hsum⟩ := hcounted sim.memory.cells.toList
  obtain rfl := Except.ok.inj (htext.symm.trans hprint)
  exact ⟨hc, sim, hr, rect, hprint, hcopy, hhalt, hspawn, hsum.trans hsize⟩

end Simulator

end ThreadSoup
