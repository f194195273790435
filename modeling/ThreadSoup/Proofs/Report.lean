import ThreadSoup.Proofs.Frames
import ThreadSoup.Report

namespace ThreadSoup

namespace OpCensus

theorem add_total (census : OpCensus) (op : Op) : (census.add op).total = census.total + 1 := by
  cases op with
  | copy | halt | spawn | push => simp only [add, total]; omega

theorem ofCells_total (cells : List Cell) : (ofCells cells).total = cells.length := by
  have hfold : ∀ (cells : List Cell) (census : OpCensus),
      (cells.foldl (fun census cell => census.add cell.op) census).total =
        census.total + cells.length := by
    intro cells
    induction cells with
    | nil => intro census; rfl
    | cons cell rest ih =>
      intro census
      rw [List.foldl_cons, ih, add_total, List.length_cons]
      omega
  rw [ofCells, hfold]
  exact Nat.zero_add _

end OpCensus

theorem ThreadCensus.ofThreads_count (threads : List Thread) :
    (ofThreads threads).count = threads.length := by
  unfold ofThreads
  cases threads with
  | nil => rfl
  | cons thread rest => rfl

/-- A run has a result with a property, unless its source gives no number or its births exceed
their total. -/
def Ends {α : Type} (births : Nat) (P : α → Prop) : Except RunFailure α → Prop
  | .ok a => P a
  | .error (.fault fault) => fault = .exhausted ∨ 2 ^ 64 ≤ births
  | .error _ => False

section Ends

variable {α β : Type} {births : Nat} {P : α → Prop} {Q : β → Prop}

theorem Ends.bind {x : Except RunFailure α} {f : α → Except RunFailure β} (hx : Ends births P x)
    (hf : ∀ a, P a → Ends births Q (f a)) : Ends births Q (x >>= f) := by
  cases x with
  | error failure =>
    cases failure with
    | settings _ _ | setup _ | fault _ => exact hx
  | ok a => exact hf a hx

end Ends

/-- The numbers up to a limit that have a property, the latest first. -/
structure LatestFirst (P : Nat → Prop) (limit : Nat) (log : List Nat) : Prop where
  mem : ∀ n, n ∈ log ↔ n ≤ limit ∧ P n
  sorted : log.Pairwise (· > ·)

section LatestFirst

variable {P : Nat → Prop} {limit : Nat} {log : List Nat}

theorem LatestFirst.add (h : LatestFirst P limit log) (hp : P (limit + 1)) :
    LatestFirst P (limit + 1) ((limit + 1) :: log) := by
  refine ⟨fun n => ?_, List.pairwise_cons.mpr ⟨fun n hn => ?_, h.sorted⟩⟩
  · rw [List.mem_cons, h.mem]
    constructor
    · rintro (rfl | ⟨hle, hn⟩)
      · exact ⟨Nat.le_refl _, hp⟩
      · exact ⟨by omega, hn⟩
    · rintro ⟨hle, hn⟩
      rcases Nat.lt_or_eq_of_le hle with hlt | heq
      · exact Or.inr ⟨by omega, hn⟩
      · exact Or.inl heq
  · have hle := ((h.mem n).mp hn).1
    omega

theorem LatestFirst.skip (h : LatestFirst P limit log) (hp : ¬P (limit + 1)) :
    LatestFirst P (limit + 1) log := by
  refine ⟨fun n => ?_, h.sorted⟩
  rw [h.mem]
  constructor
  · rintro ⟨hle, hn⟩
    exact ⟨by omega, hn⟩
  · rintro ⟨hle, hn⟩
    rcases Nat.lt_or_eq_of_le hle with hlt | rfl
    · exact ⟨by omega, hn⟩
    · exact absurd hn hp

end LatestFirst

/-- The cycles of a whole run. -/
def Options.cycles (options : Options) (config : Config) : Nat :=
  options.frames * options.frameMs.toNat / config.msPerCycle.toNat

/-- A row tells the cycles that are due by its frame, counts every cell once and shows a pool of
the allowed size. -/
structure ReportRow.Accurate (options : Options) (config : Config) (row : ReportRow) : Prop where
  cycles_eq : row.snapshot.cycles =
    row.frame * options.frameMs.toNat / config.msPerCycle.toNat
  cells_eq : row.snapshot.ops.copy + row.snapshot.ops.halt + row.snapshot.ops.spawn +
    row.snapshot.ops.push = options.rows * options.columns
  threads_le : row.snapshot.threads.count ≤ config.maxThreadCount.toNat

/-- What a recording holds after some frames. -/
structure Recording.Sound (options : Options) (layout : Layout) (frames : Nat)
    (recording : Recording) : Prop where
  played : recording.sim.Played layout options.frameMs frames
  rows : ∀ row ∈ recording.rows, row.Accurate options layout.config
  row_frames : LatestFirst (options.metricsInterval ∣ ·) frames
    (recording.rows.map ReportRow.frame)
  progress : LatestFirst (fun n => 1 ≤ n ∧ (600 ∣ n ∨ n = options.frames)) frames
    recording.progress

section Recording

variable {options : Options} {layout : Layout} {frames : Nat} {recording last : Recording}

theorem ReportRow.accurate_of_played {sim : Simulator Generator}
    (hsize : layout.rows * layout.columns = options.rows * options.columns)
    (played : sim.Played layout options.frameMs frames) :
    ReportRow.Accurate options layout.config
      { frame := frames, snapshot := Snapshot.ofSimulator sim } := by
  refine ⟨played.cycles_eq, ?_, ?_⟩
  · have htotal := OpCensus.ofCells_total sim.memory.cells.toList
    have hcells : sim.memory.cells.toList.length = layout.rows * layout.columns :=
      played.wellFormed.size_eq
    exact htotal.trans (hcells.trans hsize)
  · have hcount := ThreadCensus.ofThreads_count sim.threads
    have hle := played.threads_le
    simp only [Snapshot.ofSimulator]
    omega

theorem Recording.Sound.step (hsize : layout.rows * layout.columns = options.rows * options.columns)
    (sound : recording.Sound options layout frames)
    (h : recording.step options (frames + 1) = .ok last) :
    last.Sound options layout (frames + 1) := by
  obtain ⟨⟨sim, ran⟩, hf, h⟩ := bind_eq_ok.mp h
  cases h
  have played := sound.played.frame hf
  have hrow := ReportRow.accurate_of_played hsize played
  refine ⟨played, ?_, ?_, ?_⟩
  · intro row hmem
    simp only at hmem
    split at hmem
    next =>
      rcases List.mem_cons.mp hmem with rfl | hold
      · exact hrow
      · exact sound.rows row hold
    next => exact sound.rows row hmem
  · simp only
    split
    next hdue => exact sound.row_frames.add (Nat.dvd_of_mod_eq_zero hdue)
    next hdue => exact sound.row_frames.skip fun hdvd => hdue (Nat.mod_eq_zero_of_dvd hdvd)
  · simp only
    split
    next hdue => exact sound.progress.add ⟨by omega, by omega⟩
    next hdue => exact sound.progress.skip (by omega)

theorem Recording.Sound.run (hsize : layout.rows * layout.columns = options.rows * options.columns)
    {count : Nat} (sound : recording.Sound options layout frames)
    (h : (List.range' (frames + 1) count).foldlM (Recording.step options) recording = .ok last) :
    last.Sound options layout (frames + count) := by
  induction count generalizing frames recording with
  | zero => cases h; exact sound
  | succ count ih =>
    rw [List.range'_succ, List.foldlM_cons] at h
    obtain ⟨middle, hm, h⟩ := bind_eq_ok.mp h
    have hlast := ih (sound.step hsize hm) h
    rwa [show frames + 1 + count = frames + (count + 1) by omega] at hlast

end Recording

/-- The columns of a row as the header names them. -/
def ReportRow.line (row : ReportRow) : String :=
  let ops := row.snapshot.ops
  s!"{row.frame},{row.snapshot.cycles},{row.snapshot.threads.count},{row.snapshot.effects}," ++
    s!"{ops.copy},{ops.halt},{ops.spawn},{ops.push},{fixed 6 row.snapshot.entropy}\n"

/-- A report has a row for frame zero and for each multiple of the interval, and reports progress
at each multiple of 600 and at the end. -/
structure Report.Accurate (options : Options) (config : Config) (report : Report) : Prop where
  row_frames : ∀ n, n ∈ report.rows.map ReportRow.frame ↔
    n ≤ options.frames ∧ options.metricsInterval ∣ n
  row_order : (report.rows.map ReportRow.frame).Pairwise (· < ·)
  rows : ∀ row ∈ report.rows, row.Accurate options config
  progress : ∀ n, n ∈ report.progress ↔
    n ≤ options.frames ∧ 1 ≤ n ∧ (600 ∣ n ∨ n = options.frames)
  progress_order : report.progress.Pairwise (· < ·)
  table : report.table =
    String.join ("frame,cycles,threads,effects,copy,halt,spawn,push,hoe\n" ::
      report.rows.map ReportRow.line)
  log : report.log = String.join (report.progress.map fun n => s!"\rframe {n}/{options.frames}") ++
    "\n" ++ report.picture.getD ""

section Run

variable {options : Options} {layout : Layout} {births : Nat}

end Run

section Rejection

variable {options : Options} {config : Config} {error : SetupError}

end Rejection

end ThreadSoup
