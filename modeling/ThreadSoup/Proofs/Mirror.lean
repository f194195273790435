import ThreadSoup.Proofs.Agreement
import ThreadSoup.Proofs.Pool

namespace ThreadSoup

/-- A configuration without its choice of effects. -/
def Config.rules (config : Config) : Config :=
  { config with useCopyEffect := false, useThreadDeathEffect := false, useSpawnExpireEffect := false }

/-- Threads that differ at most in where they stand. -/
structure Thread.Alike (place : Nat → Nat → Prop) (thread image : Thread) : Prop where
  ip : place thread.ip image.ip
  stack : thread.stack = image.stack
  age : thread.age = image.age
  reversed : thread.reversed = image.reversed

theorem Thread.Alike.direction_eq {place : Nat → Nat → Prop} {thread image : Thread}
    (h : thread.Alike place image) : thread.direction = image.direction := by
  unfold Thread.direction
  rw [h.reversed]

theorem Thread.Alike.with_stack {place : Nat → Nat → Prop} {thread image : Thread} (stack : Stack)
    (h : thread.Alike place image) :
    Thread.Alike place { thread with stack } { image with stack } :=
  ⟨h.ip, rfl, h.age, h.reversed⟩

theorem Thread.Alike.eq {thread image : Thread} (h : thread.Alike Eq image) : thread = image := by
  obtain ⟨ip, stack, age, reversed⟩ := h
  cases thread
  cases image
  simp_all

theorem forall₂_alike_eq {threads images : List Thread} :
    List.Forall₂ (Thread.Alike Eq) threads images ↔ threads = images := by
  constructor
  · intro h
    have heq : List.Forall₂ Eq threads images := h.imp fun _ _ ht => ht.eq
    rwa [List.forall₂_eq_eq_eq] at heq
  · rintro rfl
    exact List.forall₂_same.mpr fun _ _ => ⟨rfl, rfl, rfl, rfl⟩

/-- Corresponding places and scenes, such that threads at corresponding places find the same
operations there and leave scenes that still correspond. -/
structure Mirror (config config' : Config) where
  place : Nat → Nat → Prop
  alike : Scene → Scene → Prop
  rules_eq : config.rules = config'.rules
  wrap : ∀ {a b : Scene} {i j : Nat} {delta : Int}, alike a b → place i j → -2 ^ 62 ≤ delta →
    delta < 2 ^ 62 → Agree place (a.memory.wrap i delta) (b.memory.wrap j delta)
  get : ∀ {a b : Scene} {i j : Nat}, alike a b → place i j →
    Agree (fun c d => c.byte = d.byte) (a.memory.get i) (b.memory.get j)
  copy : ∀ {a b : Scene} {i j k l : Nat}, alike a b → place i j → place k l →
    Agree alike (copyCell config a i k) (copyCell config' b j l)
  countDown : ∀ {a b : Scene} {i j : Nat}, alike a b → place i j →
    Agree alike (countDown config a i) (countDown config' b j)
  mourn : ∀ {a b : Scene} {thread image : Thread}, alike a b → thread.Alike place image →
    alike { a with effects := Simulator.mourn config a.effects thread }
      { b with effects := Simulator.mourn config' b.effects image }
  highlight : ∀ {a b : Scene} {thread image : Thread}, alike a b → thread.Alike place image →
    Agree (fun m n => alike { a with memory := m } { b with memory := n })
      (Simulator.highlightThread a.memory thread) (Simulator.highlightThread b.memory image)

namespace Mirror

variable {config config' : Config} {mirror : Mirror config config'}

structure Turns (mirror : Mirror config config') (turn image : Turn) : Prop where
  outcome : turn.outcome = image.outcome
  thread : turn.thread.Alike mirror.place image.thread
  scene : mirror.alike turn.scene image.scene

theorem copyCells_agree {a b : Scene} {i j k l done count : Nat} {direction : Int}
    (h : mirror.alike a b) (hs : mirror.place i j) (ht : mirror.place k l)
    (hdir : direction = 1 ∨ direction = -1) (hcount : done + count ≤ 2 ^ 31) :
    Agree mirror.alike (copyCells config i k direction done count a)
      (copyCells config' j l direction done count b) := by
  induction count generalizing done a b with
  | zero => exact Agree.ok h
  | succ count ih =>
    obtain ⟨hmul, hlow, hhigh⟩ := signedMul_direction hdir (by omega : done ≤ 2 ^ 31)
    simp only [copyCells, hmul, ok_bind]
    refine (mirror.wrap h hs (by omega) (by omega)).bind fun source source' hs' => ?_
    refine (mirror.wrap h ht (by omega) (by omega)).bind fun target target' ht' => ?_
    refine (mirror.copy h hs' ht').bind fun c d hcd => ?_
    exact ih hcd (by omega)

theorem runCopy_agree {a b : Scene} {thread image : Thread} (h : mirror.alike a b)
    (ht : thread.Alike mirror.place image) :
    Agree mirror.Turns (runCopy config a thread) (runCopy config' b image) := by
  unfold runCopy
  rw [← ht.stack]
  split
  next stack e _ => exact Agree.ok ⟨rfl, ht.with_stack stack, h⟩
  next stack operands _ =>
    have hsl := operands.source.le_toInt
    have hsu := operands.source.toInt_lt
    have htl := operands.target.le_toInt
    have htu := operands.target.toInt_lt
    have hlu := operands.length.toInt_lt
    rw [← ht.direction_eq]
    refine (mirror.wrap h ht.ip (by omega) (by omega)).bind fun source source' hs => ?_
    refine (mirror.wrap h ht.ip (by omega) (by omega)).bind fun target target' hg => ?_
    refine (copyCells_agree h hs hg thread.direction_eq (by omega)).bind fun c d hcd => ?_
    exact Agree.ok ⟨rfl, ht.with_stack stack, hcd⟩

theorem runSpawn_agree {a b : Scene} {thread image : Thread} {i j : Nat} (h : mirror.alike a b)
    (ht : thread.Alike mirror.place image) (hi : mirror.place i j) :
    Agree mirror.Turns (runSpawn config a thread i) (runSpawn config' b image j) := by
  unfold runSpawn
  rw [← ht.stack]
  split
  next => exact Agree.ok ⟨rfl, ht, h⟩
  next value stack _ =>
    refine (mirror.countDown h hi).bind fun c d hcd => ?_
    exact Agree.ok ⟨rfl, ht.with_stack stack, hcd⟩

theorem runPush_turns {a b : Scene} {thread image : Thread} (literal : Int32)
    (h : mirror.alike a b) (ht : thread.Alike mirror.place image) :
    mirror.Turns (runPush a thread literal) (runPush b image literal) := by
  unfold runPush
  rw [← ht.stack]
  split
  next => exact ⟨rfl, ht, h⟩
  next stack _ => exact ⟨rfl, ht.with_stack stack, h⟩

/-- A turn reads the scene through places alone, so corresponding threads act alike. -/
theorem dispatch_agree {a b : Scene} {thread image : Thread} (h : mirror.alike a b)
    (ht : thread.Alike mirror.place image) :
    Agree mirror.Turns (dispatch config a thread) (dispatch config' b image) := by
  have hbound := thread.direction_eq
  unfold dispatch
  refine (mirror.get h ht.ip).bind fun c d hbyte => ?_
  rw [← ht.direction_eq]
  refine (mirror.wrap h ht.ip (by omega) (by omega)).bind fun ip ip' hip => ?_
  have hmoved : Thread.Alike mirror.place { thread with ip, age := saturatingAdd thread.age 1 }
      { image with ip := ip', age := saturatingAdd image.age 1 } :=
    ⟨hip, ht.stack, by rw [ht.age], ht.reversed⟩
  unfold Cell.op
  rw [← hbyte]
  simp only
  split
  next => exact runCopy_agree h hmoved
  next => exact Agree.ok ⟨rfl, hmoved, h⟩
  next => exact runSpawn_agree h hmoved ht.ip
  next literal _ => exact Agree.ok (runPush_turns literal h hmoved)

structure Rounds (mirror : Mirror config config') (round image : Round) : Prop where
  scene : mirror.alike round.scene image.scene
  tally : round.tally = image.tally
  survivors : List.Forall₂ (Thread.Alike mirror.place) round.survivors image.survivors

theorem give_agree {round round' : Round} {thread image : Thread} (h : mirror.Rounds round round')
    (ht : thread.Alike mirror.place image) :
    Agree mirror.Rounds (round.give config thread) (round'.give config' image) := by
  unfold Round.give
  refine (dispatch_agree h.scene ht).bind fun turn turn' hturn => ?_
  rw [← hturn.outcome]
  split
  next =>
    have hlast : List.Forall₂ (Thread.Alike mirror.place) [turn.thread] [turn'.thread] :=
      List.Forall₂.cons hturn.thread List.Forall₂.nil
    exact Agree.ok ⟨hturn.scene, h.tally, List.rel_append h.survivors hlast⟩
  next cause _ =>
    rw [← h.tally]
    refine (Agree.refl _).bind fun tally tally' htally => ?_
    exact Agree.ok ⟨mirror.mourn hturn.scene hturn.thread, htally, h.survivors⟩

end Mirror

end ThreadSoup
