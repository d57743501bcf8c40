import ClockControl.Proofs.Completion

/-! Tasks that keep apart. What a task makes of its registers and flags is a matter of these alone,
so that tasks on separate ones can be done in either order, and since doing a task twice is doing it
once, a course of such tasks makes the same of the hardware if one of them has been done before.
Main statements: `image_comm`, `oscillators_comm` and `course_absorb`. -/
namespace ClockControl

theorem Image.ext_get {m n : Image} (h : ∀ i : Fin 64, m.get i = n.get i) : m = n := by
  apply Vector.ext
  intro i hi
  exact h ⟨i, hi⟩

namespace Task
variable {k k' : Task}

/-- What the work makes of its registers is a matter of what they held before. -/
theorem image_local {m n : Image} (same : ∀ r ∈ k.footprint.registers, n.load r = m.load r) :
    ∀ r ∈ k.footprint.registers, (k.image n).load r = (k.image m).load r := by
  have tree (f : Word → Word) (same : ∀ r ∈ Footprint.tree.registers, n.load r = m.load r) :
      ∀ r ∈ Footprint.tree.registers,
        (n.store .treeControl (f (n.load .treeControl))).load r =
          (m.store .treeControl (f (m.load .treeControl))).load r := by
    intro r hr
    rw [same _ (List.mem_singleton_self _)]
    exact Image.load_store_congr (same r hr) _ _
  intro r hr
  cases k with
  | park => exact tree _ same r hr
  | oscillator o => exact absurd hr List.not_mem_nil
  | powerDown p => exact Image.load_store_congr (same r hr) _ _
  | start p d f lockWait =>
    have output := same _ (Footprint.mem_pll p .output)
    have tapped : (p.programmed d n).load (.pll p .output) =
        (p.programmed d m).load (.pll p .output) := by
      rw [Pll.programmed_output, Pll.programmed_output, output]
    rw [image, image, Pll.tapped, Pll.tapped, tapped]
    apply Image.load_store_congr
    simp only [Pll.programmed, Image.load_store_of_ne, ne_eq, reduceCtorEq, not_false_eq_true,
      Register.pll.injEq, and_false, output]
    iterate 5 apply Image.load_store_congr
    exact same r hr
  | tree t => exact tree (fun control => TreeControl.select t.source (t.divided control)) same r hr

/-- A board that looks the same is made to look the same. -/
theorem image_agree {m n : Image} (h : m.Agree n) : (k.image m).Agree (k.image n) := by
  intro i hc hd
  by_cases inside : ∃ r ∈ k.footprint.registers, r.index = i
  · obtain ⟨r, hr, rfl⟩ := inside
    refine image_local (fun s hs => ?_) r hr
    exact h.load (footprint_ordinary hs).1 (footprint_ordinary hs).2
  · have outside : ∀ r ∈ k.footprint.registers, r.index ≠ i :=
      fun r hr same => inside ⟨r, hr, same⟩
    rw [image_get outside, image_get outside]
    exact h i hc hd

theorem image_comm (apart : k.footprint.Apart k'.footprint) (m : Image) :
    k.image (k'.image m) = k'.image (k.image m) := by
  have inside {k k' : Task} (apart : k.footprint.Apart k'.footprint) {r : Register}
      (hr : r ∈ k.footprint.registers) :
      (k.image (k'.image m)).load r = (k'.image (k.image m)).load r := by
    rw [image_load (apart.registers r hr)]
    exact image_local (fun s hs => image_load (apart.registers s hs) m) r hr
  apply Image.ext_get
  intro i
  by_cases mine : ∃ r ∈ k.footprint.registers, r.index = i
  · obtain ⟨r, hr, rfl⟩ := mine
    exact inside apart hr
  · by_cases yours : ∃ r ∈ k'.footprint.registers, r.index = i
    · obtain ⟨r, hr, rfl⟩ := yours
      exact (inside apart.symm hr).symm
    · have outside : ∀ r ∈ k.footprint.registers, r.index ≠ i :=
        fun r hr same => mine ⟨r, hr, same⟩
      have outside' : ∀ r ∈ k'.footprint.registers, r.index ≠ i :=
        fun r hr same => yours ⟨r, hr, same⟩
      rw [image_get outside, image_get outside', image_get outside', image_get outside]

/-- The flags of the oscillator control that the work writes. -/
def flags : Task → List (Field 8 × Nat)
  | .oscillator o =>
    [(o.enable, 1), (OscillatorControl.useRc, (decide (o = .rc)).toNat)]
  | .start p _ _ _ => [(p.reference, 1)]
  | .park | .powerDown _ | .tree _ => []

theorem oscillators_eq (k : Task) (control : Byte) :
    k.oscillators control = Field.putAll k.flags control := by
  cases k <;> rfl

theorem flags_mem {k : Task} {w : Field 8 × Nat} (hw : w ∈ k.flags) :
    w.1 ∈ k.footprint.flags := by
  cases k with
  | oscillator o =>
    obtain rfl | hw := List.mem_cons.1 hw
    · exact o.enable_mem
    · obtain rfl := List.mem_singleton.1 hw
      exact Oscillator.useRc_mem
  | start p d f lockWait =>
    obtain rfl := List.mem_singleton.1 hw
    exact List.mem_singleton_self _
  | park => cases hw
  | powerDown p => cases hw
  | tree t => cases hw

theorem oscillators_comm (apart : k.footprint.Apart k'.footprint) (control : Byte) :
    k.oscillators (k'.oscillators control) = k'.oscillators (k.oscillators control) := by
  simp only [oscillators_eq]
  exact Field.putAll_comm (fun v hv w hw => apart.flags _ (flags_mem hv) _ (flags_mem hw)) _

/-- The board that the task makes of a block and a control. -/
theorem exists_done (k : Task) (m : Image) (control : Byte) :
    ∃ b : Board, b.image = k.image m ∧ b.oscillators = k.oscillators control ∧ k.Done b := by
  let b : Board := { Board.blank with
    image := k.image m
    pmu := Board.blank.pmu.write Register.oscillatorControl (k.oscillators control) }
  have oscillators : b.oscillators = k.oscillators control := RegisterFile.read_write_self _ _ _
  exact ⟨b, rfl, oscillators, done_of_effect (fun _ _ => rfl) oscillators⟩

theorem image_image (k : Task) (m : Image) : k.image (k.image m) = k.image m := by
  obtain ⟨b, image, -, done⟩ := k.exists_done m 0
  rw [← image]
  exact done.image

theorem oscillators_oscillators (k : Task) (control : Byte) :
    k.oscillators (k.oscillators control) = k.oscillators control := by
  obtain ⟨b, -, oscillators, done⟩ := k.exists_done Board.blank.image control
  rw [← oscillators]
  exact done.oscillators

/-- What the tasks make of something, one after another. -/
def course (f : Task → α → α) (ks : List Task) (x : α) : α := ks.foldl (fun x k => f k x) x

theorem course_singleton (f : Task → α → α) (k : Task) (x : α) : course f [k] x = f k x := rfl

/-- The tasks keep apart from each other. -/
def Apart (ks : List Task) : Prop := ks.Pairwise fun k k' => k.footprint.Apart k'.footprint

/-- A task of the course can be done beforehand. -/
theorem course_absorb {f : Task → α → α}
    (comm : ∀ k k' : Task, k.footprint.Apart k'.footprint → ∀ x, f k (f k' x) = f k' (f k x))
    (twice : ∀ k x, f k (f k x) = f k x) {ks : List Task} (apart : Apart ks) (hk : k ∈ ks) (x : α) :
    course f ks (f k x) = course f ks x := by
  induction ks generalizing x with
  | nil => cases hk
  | cons first ks ih =>
    obtain ⟨front, rest⟩ := List.pairwise_cons.1 apart
    show course f ks (f first (f k x)) = course f ks (f first x)
    obtain rfl | hk := List.mem_cons.1 hk
    · rw [twice]
    · rw [comm _ _ (front k hk), ih rest hk]

theorem course_image_agree {m n : Image} (h : m.Agree n) (ks : List Task) :
    (course image ks m).Agree (course image ks n) := by
  induction ks generalizing m n with
  | nil => exact h
  | cons k ks ih => exact ih (image_agree h)

/-- A course of tasks that are all done changes nothing. -/
theorem course_eq_self {f : Task → α → α} {ks : List Task} {x : α} (h : ∀ k ∈ ks, f k x = x) :
    course f ks x = x := by
  induction ks with
  | nil => rfl
  | cons k ks ih =>
    show course f ks (f k x) = x
    rw [h k List.mem_cons_self]
    exact ih fun k hk => h k (List.mem_cons_of_mem _ hk)

end Task

/-- Two boards of which a course of tasks makes the same, and which differ in nothing that it leaves
alone but the bridge. -/
structure Board.Converge (ks : List Task) (a b : Board) : Prop where
  image : (Task.course Task.image ks a.image).Agree (Task.course Task.image ks b.image)
  oscillators : Task.course Task.oscillators ks b.oscillators =
    Task.course Task.oscillators ks a.oscillators
  pmu : b.pmu = a.pmu.write Register.oscillatorControl b.oscillators

namespace Board.Converge
variable {ks : List Task} {k : Task} {a b d : Board}

theorem of_same (image : a.image.Agree b.image) (pmu : b.pmu = a.pmu) : Converge ks a b where
  image := Task.course_image_agree image ks
  oscillators := by rw [Board.oscillators, pmu]
  pmu := by rw [Board.oscillators, pmu, RegisterFile.write_read]

theorem symm (h : Converge ks a b) : Converge ks b a where
  image := h.image.symm
  oscillators := h.oscillators.symm
  pmu := by rw [h.pmu, RegisterFile.write_write, RegisterFile.write_read]

theorem trans (h : Converge ks a b) (h' : Converge ks b d) : Converge ks a d where
  image := h.image.trans h'.image
  oscillators := h'.oscillators.trans h.oscillators
  pmu := by rw [h'.pmu, h.pmu, RegisterFile.write_write]

/-- What one of the tasks evens out the course evens out. -/
theorem of_mem (h : Converge [k] a b) (apart : Task.Apart ks) (hk : k ∈ ks) : Converge ks a b where
  image := by
    have image := Task.course_image_agree h.image ks
    have absorbed := Task.course_absorb (fun _ _ => Task.image_comm) Task.image_image apart hk
    rwa [Task.course_singleton, Task.course_singleton, absorbed, absorbed] at image
  oscillators := by
    have flags := congrArg (Task.course Task.oscillators ks) h.oscillators
    have absorbed := Task.course_absorb (fun _ _ => Task.oscillators_comm)
      Task.oscillators_oscillators apart hk
    rwa [Task.course_singleton, Task.course_singleton, absorbed, absorbed] at flags
  pmu := h.pmu

end Board.Converge

namespace Task
variable {k : Task} {rig rig' : Rig}

/-- A task that is done makes no difference to itself. -/
theorem Takes.converge (h : k.Takes rig rig') : Board.Converge [k] rig.board rig'.board where
  image := by
    have image := image_agree (k := k) h.image
    rwa [image_image] at image
  oscillators := by
    rw [h.oscillators]
    exact k.oscillators_oscillators _
  pmu := by rw [h.oscillators, h.pmu]

/-- Nor does the parking of the MCU to a tree. -/
theorem Takes.converge_tree (h : Task.park.Takes rig rig') (t : Tree) :
    Board.Converge [.tree t] rig.board rig'.board where
  image := by
    have image := image_agree (k := .tree t) h.image
    have parked (m : Image) : (tree t).image (Task.park.image m) = (tree t).image m := by
      rw [Task.image, Task.image, Image.load_store_self, Image.store_store_self,
        Tree.select_divided, Tree.putAll_writes_select]
      rfl
    rwa [parked] at image
  oscillators := h.oscillators
  pmu := by rw [h.oscillators, h.pmu]

end Task
end ClockControl
