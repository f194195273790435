import Mathlib.Data.List.Nodup
import ThreadSoup.Proofs.PlainValues

namespace ThreadSoup.Toml

/-- A name that needs no quotes. -/
structure Bare (name : String) : Prop where
  ne_nil : name.toList ≠ []
  all_bare : ∀ c ∈ name.toList, isBare c

theorem Bare.head {name : String} {s t : List Char} {c : Char} (bare : Bare name)
    (heq : name.toList ++ s = c :: t) : isBare c := by
  cases hn : name.toList with
  | nil => exact absurd hn bare.ne_nil
  | cons first chars =>
    rw [hn] at heq
    cases heq
    exact bare.all_bare c (by rw [hn]; simp)

theorem ne_of_isBare {c d : Char} (h : isBare c) (hd : isBare d = false) : c ≠ d := by
  rintro rfl
  rw [h] at hd
  cases hd

theorem isBlank_of_isBare {c : Char} (h : isBare c) : isBlank c = false := by
  have hspace : c ≠ ' ' := ne_of_isBare h (by decide)
  have htab : c ≠ '\t' := ne_of_isBare h (by decide)
  simp [isBlank, hspace, htab]

theorem Bare.skipBlanks {name : String} (bare : Bare name) (s : List Char) :
    skipBlanks (name.toList ++ s) = name.toList ++ s := by
  cases hn : name.toList ++ s with
  | nil => rfl
  | cons c t => exact List.dropWhile_cons_of_neg (by simp [isBlank_of_isBare (bare.head hn)])

theorem readKeyPart_bare {name : String} (bare : Bare name) (s : List Char) :
    readKeyPart (name.toList ++ ' ' :: s) = some (name, ' ' :: s) := by
  have htake : (name.toList ++ ' ' :: s).takeWhile isBare = name.toList := by
    rw [List.takeWhile_append_of_pos bare.all_bare]
    exact List.append_nil _
  have hdrop : (name.toList ++ ' ' :: s).dropWhile isBare = ' ' :: s := by
    rw [List.dropWhile_append_of_pos bare.all_bare]
    rfl
  rw [readKeyPart.eq_def]
  split
  next heq => exact absurd (bare.head heq) (by decide)
  next heq => exact absurd (bare.head heq) (by decide)
  next =>
    simp only [htake, hdrop, List.isEmpty_iff, bare.ne_nil, if_false, String.ofList_toList]

theorem readKey_bare {name : String} (bare : Bare name) (s : List Char) :
    readKey (name.toList ++ ' ' :: '=' :: s) = some ([name], '=' :: s) := by
  have hparts : readKeyParts (name.toList ++ ' ' :: '=' :: s) = some ([name], '=' :: s) := by
    rw [readKeyParts, bare.skipBlanks, readKeyPart_bare bare]
    rfl
  rw [readKey, hparts]
  rfl

theorem bare_toString_int (n : Int) : Bare (toString n) := by
  have hdigit : ∀ m, ∀ c ∈ Nat.toDigits 10 m, isBare c := by
    intro m c hc
    have hc := isDigit_toDigits m c hc
    rw [← isDecimalDigit_eq] at hc
    simp [isBare, hc]
  rcases toString_int_cases n with ⟨htext, _⟩ | ⟨htext, _⟩
  · exact ⟨htext ▸ Nat.toDigits_ne_nil, htext ▸ hdigit _⟩
  · refine ⟨htext ▸ List.cons_ne_nil _ _, ?_⟩
    rw [htext]
    exact List.forall_mem_cons.mpr ⟨by decide, hdigit _⟩

theorem bare_toString_bool (b : Bool) : Bare (toString b) := by
  have hall : (toString b).toList.all isBare = true := by cases b <;> decide
  exact ⟨by cases b <;> decide, List.all_eq_true.mp hall⟩

theorem unifyNewlines_of_not_mem {s : List Char} (h : '\r' ∉ s) : unifyNewlines s = s := by
  induction s with
  | nil => rfl
  | cons c s ih =>
    rw [List.mem_cons, not_or] at h
    rw [unifyNewlines.eq_def]
    split
    next heq =>
      cases heq
      exact absurd rfl h.1
    next heq =>
      cases heq
      rw [ih h.2]
    next heq => cases heq

/-- The entries of a text without carriage returns and byte order marks. -/
theorem parse_eq {text : String} (hplain : ∀ c ∈ text.toList, c ≠ '\r' ∧ c ≠ '\ufeff') :
    parse text = (readStatements text.toList >>= fun statements =>
      statements.foldlM Draft.add {} >>= fun draft => some draft.entries) := by
  have hunify := unifyNewlines_of_not_mem fun hr => (hplain '\r' hr).1 rfl
  unfold parse
  split
  next s heq =>
    exact absurd rfl (hplain '\ufeff' (by rw [heq]; simp)).2
  next =>
    simp only [hunify]
    rfl

theorem get?_eq_none_iff {key : String} {entries : Entries} :
    entries.get? key = none ↔ key ∉ entries.map Prod.fst := by
  rw [Entries.get?, List.lookup_eq_none_iff, List.mem_map]
  refine ⟨?_, ?_⟩
  · rintro h ⟨entry, hmem, rfl⟩
    exact absurd (h entry hmem) (by simp)
  · intro h entry hmem
    rw [bne_iff_ne]
    rintro rfl
    exact h ⟨entry, hmem, rfl⟩

theorem set_of_not_mem {key : String} {entries : Entries} (value : Value)
    (h : key ∉ entries.map Prod.fst) : entries.set key value = entries ++ [(key, value)] := by
  induction entries with
  | nil => rfl
  | cons entry entries ih =>
    rw [List.map_cons, List.mem_cons, not_or] at h
    rw [Entries.set, if_neg (Ne.symm h.1), ih h.2]
    rfl

/-- Keys that are given one after the other must all be new. -/
theorem foldlM_addKey {entries : Entries} (more : Entries) (h : (entries.map Prod.fst).Nodup) :
    more.foldlM (fun known entry => Entries.addKey entry.1 entry.2 known) entries =
      if ((entries ++ more).map Prod.fst).Nodup then some (entries ++ more) else none := by
  induction more generalizing entries with
  | nil => simp [h]
  | cons entry more ih =>
    rw [List.foldlM_cons, Entries.addKey]
    by_cases hknown : entry.1 ∈ entries.map Prod.fst
    · have hrepeated : ¬((entries ++ entry :: more).map Prod.fst).Nodup := by
        intro hnodup
        rw [List.map_append, List.nodup_append] at hnodup
        exact hnodup.2.2 entry.1 hknown entry.1 (by simp) rfl
      rw [if_neg hrepeated]
      cases hg : entries.get? entry.1 with
      | none => exact absurd hknown (get?_eq_none_iff.mp hg)
      | some old => rfl
    · have hnodup : ((entries ++ [entry]).map Prod.fst).Nodup := by
        rw [List.map_append, List.nodup_append]
        refine ⟨h, by simp, ?_⟩
        intro key hkey other hother heq
        rw [List.map_singleton, List.mem_singleton] at hother
        exact hknown (hother ▸ heq ▸ hkey)
      rw [get?_eq_none_iff.mpr hknown]
      simp only [Option.bind_eq_bind, Option.bind_some, set_of_not_mem entry.2 hknown]
      rw [ih hnodup, List.append_assoc]
      rfl

/-- Assignments before the first header go to the outermost table. -/
theorem foldlM_add (entries more : Entries) :
    ((more.map fun entry => Statement.assign [entry.1] entry.2).foldlM Draft.add { entries } >>=
        fun draft => some draft.entries) =
      more.foldlM (fun known entry => Entries.addKey entry.1 entry.2 known) entries := by
  induction more generalizing entries with
  | nil => rfl
  | cons entry more ih =>
    rw [List.map_cons, List.foldlM_cons, List.foldlM_cons]
    have hadd : Draft.add { entries } (.assign [entry.1] entry.2) =
        (Entries.addKey entry.1 entry.2 entries).map fun entries => { entries } := by
      simp only [Draft.add, Entries.within, Entries.assign]
      cases Entries.addKey entry.1 entry.2 entries with
      | none => rfl
      | some known => rfl
    rw [hadd]
    cases Entries.addKey entry.1 entry.2 entries with
    | none => rfl
    | some known => exact ih known

theorem readAssignment_bare {name : String} (readItem : Reader Value) (bare : Bare name)
    {value : List Char} (hvalue : skipBlanks value = value) :
    readAssignment readItem (name.toList ++ ' ' :: '=' :: ' ' :: value) =
      (readItem value).map fun item => (([name], item.1), item.2) := by
  have hblank : skipBlanks (' ' :: value) = value := hvalue
  rw [readAssignment, readKey_bare bare]
  simp only [skipChar, if_true, Option.bind_eq_bind, Option.bind_some, hblank]
  cases readItem value with
  | none => rfl
  | some item => rfl

theorem readStatement_bare {name : String} (bare : Bare name) (s : List Char) :
    readStatement (name.toList ++ s) =
      (readAssignment (readValue (depthLimit - 1)) (name.toList ++ s)).map fun line =>
        (some (.assign line.1.1 line.1.2), line.2) := by
  rw [readStatement.eq_def]
  split
  next heq => exact absurd (bare.head heq) (by decide)
  next heq => exact absurd (bare.head heq) (by decide)
  next =>
    cases hn : name.toList ++ s with
    | nil => exact absurd (List.append_eq_nil_iff.mp hn).1 bare.ne_nil
    | cons c t =>
      have hnewline : c ≠ '\n' := ne_of_isBare (bare.head hn) (by decide)
      have hcomment : c ≠ '#' := ne_of_isBare (bare.head hn) (by decide)
      have hstart : (c == '\n' || c == '#') = false := by simp [hnewline, hcomment]
      simp only [List.head?_cons, Option.all_some, hstart, Bool.false_eq_true, if_false]
      cases readAssignment (readValue (depthLimit - 1)) (c :: t) with
      | none => rfl
      | some line => rfl

/-- What is left of a text after the end of a line. -/
theorem endLine_eq_tail {rest : List Char} (h : LineEnd rest) : endLine rest = some rest.tail := by
  cases h with
  | nil => rfl
  | newline s => rfl

theorem readStatements_nil : readStatements [] = some [] := by
  rw [readStatements]
  rfl

end ThreadSoup.Toml

namespace ThreadSoup

/-- A line that gives a number or a switch its value. -/
inductive Setting where
  | number (name : String) (value : Int)
  | switch (name : String) (value : Bool)
deriving DecidableEq

namespace Setting

def name : Setting → String
  | .number name _ => name
  | .switch name _ => name

def written : Setting → String
  | .number _ value => toString value
  | .switch _ value => toString value

def line (setting : Setting) : String := s!"{setting.name} = {setting.written}"

/-- The lines of a text that may end with or without the end of its last line. -/
def text (settings : List Setting) (ending : String) : String :=
  "\n".intercalate (settings.map line) ++ ending

/-- What is read from a line. A number must fit 64 bits. -/
def value? : Setting → Option Toml.Value
  | .number _ value => Toml.integerValue value
  | .switch _ value => some (.boolean value)

open Toml

theorem readValue_written (setting : Setting) (depth : Nat) {rest : List Char} (h : LineEnd rest) :
    readValue depth (setting.written.toList ++ rest) = setting.value?.map (·, rest) := by
  cases setting with
  | number name value => exact readValue_int depth value h
  | switch name value => exact readValue_bool depth value rest

theorem written_bare (setting : Setting) : Bare setting.written := by
  cases setting with
  | number name value => exact bare_toString_int value
  | switch name value => exact bare_toString_bool value

variable {setting : Setting}

theorem toList_line (setting : Setting) :
    setting.line.toList = setting.name.toList ++ ' ' :: '=' :: ' ' :: setting.written.toList := by
  have hline : setting.line = setting.name ++ " = " ++ setting.written := rfl
  rw [hline, String.toList_append, String.toList_append, List.append_assoc]
  rfl

/-- A line reads as the assignment of its value, and what follows it is left. -/
theorem readStatement_line {rest : List Char} (bare : Bare setting.name) (h : LineEnd rest) :
    readStatement (skipBlanks (setting.line.toList ++ rest)) =
      setting.value?.map fun value => (some (.assign [setting.name] value), rest) := by
  have hblank := setting.written_bare.skipBlanks rest
  rw [toList_line, List.append_assoc, bare.skipBlanks, readStatement_bare bare]
  change Option.map _ (readAssignment _ (setting.name.toList ++ ' ' :: '=' :: ' ' ::
    (setting.written.toList ++ rest))) = _
  rw [readAssignment_bare _ bare hblank, setting.readValue_written _ h]
  cases setting.value? with
  | none => rfl
  | some value => rfl

theorem readStatements_line {rest : List Char} (bare : Bare setting.name) (h : LineEnd rest) :
    readStatements (setting.line.toList ++ rest) = (do
      let value ← setting.value?
      let statements ← readStatements rest.tail
      return .assign [setting.name] value :: statements) := by
  have hshorter : rest.tail.length < (setting.line.toList ++ rest).length := by
    rw [toList_line, List.length_append, List.length_append, List.length_tail]
    have := List.length_pos_iff.mpr bare.ne_nil
    omega
  have hsome : (setting.line.toList ++ rest).isEmpty = false :=
    List.isEmpty_eq_false_iff.mpr (List.length_pos_iff.mp (by omega))
  rw [readStatements, hsome, readStatement_line bare h]
  cases hv : setting.value? with
  | none => rfl
  | some value =>
    simp only [Bool.false_eq_true, if_false, Option.map_some, Option.bind_eq_bind, Option.bind_some,
      endLine_eq_tail h, if_pos hshorter]
    rfl

variable {settings : List Setting} {ending : String}

theorem readStatements_ending (h : ending = "" ∨ ending = "\n") :
    LineEnd ending.toList ∧ ending.toList.tail = [] ∧ readStatements ending.toList = some [] := by
  rcases h with rfl | rfl
  · exact ⟨LineEnd.nil, rfl, readStatements_nil⟩
  · refine ⟨LineEnd.newline [], rfl, ?_⟩
    rw [readStatements]
    change (readStatements [] >>= fun statements => some ([] ++ statements)) = _
    rw [readStatements_nil]
    rfl

theorem text_nil (ending : String) : (text [] ending).toList = ending.toList := by
  rw [text, String.toList_append, String.toList_intercalate, List.map_nil, List.map_nil,
    List.intercalate_nil, List.nil_append]

theorem text_singleton (setting : Setting) (ending : String) :
    (text [setting] ending).toList = setting.line.toList ++ ending.toList := by
  rw [text, String.toList_append, String.toList_intercalate, List.map_singleton,
    List.map_singleton, List.intercalate_singleton]

theorem text_cons_cons (setting next : Setting) (more : List Setting) (ending : String) :
    (text (setting :: next :: more) ending).toList =
      setting.line.toList ++ '\n' :: (text (next :: more) ending).toList := by
  simp only [text, String.toList_append, String.toList_intercalate, List.map_cons,
    List.intercalate_cons_cons, List.append_assoc]
  rfl

theorem text_newline (h : settings ≠ []) :
    text settings "\n" = String.join (settings.map fun setting => setting.line ++ "\n") := by
  apply String.toList_inj.mp
  induction settings with
  | nil => exact absurd rfl h
  | cons setting more ih =>
    rw [List.map_cons, String.join_cons, String.toList_append, String.toList_append]
    cases more with
    | nil =>
      rw [text_singleton, List.map_nil, String.join_nil, String.toList_empty, List.append_nil]
    | cons next more =>
      rw [text_cons_cons, ih (List.cons_ne_nil next more), List.append_assoc]
      rfl

/-- After the line of a setting the text goes on with the lines of the others. -/
theorem text_cons (setting : Setting) (more : List Setting) (h : ending = "" ∨ ending = "\n") :
    ∃ rest, LineEnd rest ∧ (text (setting :: more) ending).toList = setting.line.toList ++ rest ∧
      readStatements rest.tail = readStatements (text more ending).toList := by
  obtain ⟨hend, hlast, hempty⟩ := readStatements_ending h
  cases more with
  | nil =>
    refine ⟨ending.toList, hend, text_singleton setting ending, ?_⟩
    rw [text_nil, hlast, hempty, readStatements_nil]
  | cons next more => exact ⟨_, LineEnd.newline _, text_cons_cons setting next more ending, rfl⟩

/-- The entries that the lines of a text give, each under the name of its setting. -/
def entries? (settings : List Setting) : Option Entries :=
  settings.mapM fun setting => setting.value?.map (setting.name, ·)

theorem entries?_cons (setting : Setting) (more : List Setting) :
    entries? (setting :: more) = (do
      let value ← setting.value?
      let entries ← entries? more
      return (setting.name, value) :: entries) := by
  rw [entries?, List.mapM_cons]
  cases setting.value? with
  | none => rfl
  | some value => rfl

theorem entries?_cons_eq_some {more : List Setting} {entries : Entries} :
    entries? (setting :: more) = some entries ↔ ∃ value rest, setting.value? = some value ∧
      entries? more = some rest ∧ entries = (setting.name, value) :: rest := by
  rw [entries?_cons]
  cases setting.value? with
  | none => simp
  | some value => cases entries? more <;> simp [eq_comm]

theorem entries?_names {entries : Entries} (h : entries? settings = some entries) :
    entries.map Prod.fst = settings.map name := by
  induction settings generalizing entries with
  | nil => cases h; rfl
  | cons setting more ih =>
    obtain ⟨value, rest, _, hrest, rfl⟩ := entries?_cons_eq_some.mp h
    rw [List.map_cons, List.map_cons, ih hrest]

theorem readStatements_text (hbare : ∀ setting ∈ settings, Bare setting.name)
    (h : ending = "" ∨ ending = "\n") :
    readStatements (text settings ending).toList = (entries? settings).map fun entries =>
      entries.map fun entry => .assign [entry.1] entry.2 := by
  induction settings with
  | nil => rw [text_nil, (readStatements_ending h).2.2]; rfl
  | cons setting more ih =>
    obtain ⟨rest, hrest, htext, htail⟩ := text_cons setting more h
    have hmore := ih fun s hs => hbare s (List.mem_cons_of_mem setting hs)
    rw [htext, readStatements_line (hbare setting (by simp)) hrest, htail, hmore, entries?_cons]
    cases setting.value? with
    | none => rfl
    | some value =>
      cases entries? more with
      | none => rfl
      | some entries => rfl

theorem line_plain (bare : Bare setting.name) :
    ∀ c ∈ setting.line.toList, c ≠ '\r' ∧ c ≠ '\ufeff' := by
  have hplain : ∀ c : Char, isBare c → c ≠ '\r' ∧ c ≠ '\ufeff' := fun c hc =>
    ⟨ne_of_isBare hc (by decide), ne_of_isBare hc (by decide)⟩
  intro c hc
  simp only [toList_line, List.mem_append, List.mem_cons] at hc
  rcases hc with hname | rfl | rfl | rfl | hwritten
  · exact hplain c (bare.all_bare c hname)
  · decide
  · decide
  · decide
  · exact hplain c (setting.written_bare.all_bare c hwritten)

theorem text_plain (hbare : ∀ setting ∈ settings, Bare setting.name)
    (h : ending = "" ∨ ending = "\n") :
    ∀ c ∈ (text settings ending).toList, c ≠ '\r' ∧ c ≠ '\ufeff' := by
  have hending : ∀ c ∈ ending.toList, c ≠ '\r' ∧ c ≠ '\ufeff' := by
    rcases h with rfl | rfl
    · simp
    · simp
  induction settings with
  | nil =>
    rw [text_nil]
    exact hending
  | cons setting more ih =>
    have hmore := ih fun s hs => hbare s (List.mem_cons_of_mem setting hs)
    have hline := line_plain (hbare setting (by simp))
    cases more with
    | nil =>
      rw [text_singleton]
      exact List.forall_mem_append.mpr ⟨hline, hending⟩
    | cons next more =>
      rw [text_cons_cons]
      exact List.forall_mem_append.mpr ⟨hline, List.forall_mem_cons.mpr ⟨by decide, hmore⟩⟩

/-- A text of plain lines has an entry for each line, as long as every value fits 64 bits and no
name comes twice. -/
theorem parse_text (hbare : ∀ setting ∈ settings, Bare setting.name)
    (h : ending = "" ∨ ending = "\n") :
    parse (text settings ending) = (entries? settings >>= fun entries =>
      if (settings.map name).Nodup then some entries else none) := by
  rw [parse_eq (text_plain hbare h), readStatements_text hbare h]
  cases hentries : entries? settings with
  | none => rfl
  | some entries =>
    simp only [Option.map_some, Option.bind_eq_bind, Option.bind_some, ← entries?_names hentries]
    exact (foldlM_add [] entries).trans (foldlM_addKey entries List.nodup_nil)

end Setting

end ThreadSoup
