import ClockControl.Proofs.Effect

/-! What the hardware shows of a task once it is done, and goes on to show until another task works
on the same registers and flags. Doing again what is done changes nothing. Main statements:
`Takes.done`, `Done.kept` and `Done.image`. -/
namespace ClockControl

namespace Footprint

/-- The two have no register in common, and no bits of the oscillator control. -/
structure Apart (F G : Footprint) : Prop where
  registers : ∀ r ∈ F.registers, r ∉ G.registers
  flags : ∀ f ∈ F.flags, ∀ g ∈ G.flags, f.Disjoint g

theorem Apart.symm {F G : Footprint} (h : F.Apart G) : G.Apart F where
  registers r hG hF := h.registers r hF hG
  flags g hG f hF := (h.flags f hF g hG).symm

theorem Avoids.apart {F : Footprint} {p : Pll} (h : F.Avoids p) : (pll p).Apart F where
  registers r hr := by
    obtain ⟨part, -, rfl⟩ := List.mem_map.1 hr
    exact h.registers part
  flags f hf := by
    obtain rfl := List.mem_singleton.1 hf
    exact h.flags

theorem oscillators_apart_tree : oscillators.Apart tree where
  registers _ h := absurd h List.not_mem_nil
  flags _ _ _ h := absurd h List.not_mem_nil

end Footprint

/-- The PLL has been started with the divider fields `d`. -/
structure Pll.Started (p : Pll) (d : Divider) (b : Board) : Prop where
  analog0 : b.image.load (.pll p .analog0) = p.recipe.analog0
  analog1 : b.image.load (.pll p .analog1) = p.recipe.analog1
  divider : b.image.load (.pll p .divider) = d.word
  den : PllOutput.den.get (b.image.load (.pll p .output)) = PllOutput.den.keep d.den.toNat
  tap : PllOutput.halfTap.get (b.image.load (.pll p .output)) = PllOutput.halfTap.keep 1
  power : b.image.load (.pll p .power) = (p.recipe.ramp d.hasFraction).settle
  reference : p.reference.get b.oscillators = p.reference.keep 1

/-- The fields of the tree register that a tree sets. -/
def Tree.writes (t : Tree) : List (Field 32 × Nat) :=
  [(TreeControl.soc, t.soc.toNat - 1), (TreeControl.mcu, t.mcu.toNat - 1),
    (TreeControl.bus0, t.bus0.toNat - 1), (TreeControl.bus1, t.bus1.toNat - 1),
    (TreeControl.bus2, t.bus2.toNat - 1), (TreeControl.source, t.source.code)]

namespace Pll.Started
variable {p : Pll} {d : Divider} {b : Board}

/-- The power word suits the fields of the divider register. -/
theorem settled (h : p.Started d b) : b.image.load (.pll p .power) =
    if PllDivider.frac.get (b.image.load (.pll p .divider)) = 0 then p.recipe.integer.settle
    else p.recipe.fractional.settle := by
  have fraction : d.hasFraction = true ↔ d.frac.toNat ≠ 0 := by
    rw [Divider.hasFraction, bne_iff_ne, ne_eq, ← UInt16.toNat_inj, UInt16.toNat_zero]
  rw [h.power, h.divider, Divider.get_frac_word, Recipe.ramp]
  by_cases none : d.frac.toNat = 0
  · rw [if_pos none, if_neg fun some => fraction.1 some none]
  · rw [if_neg none, if_pos (fraction.2 none)]

/-- Starting the PLL again would change nothing. -/
theorem image (h : p.Started d b) : p.tapped (p.programmed d b.image) = b.image := by
  have programmed : p.programmed d b.image = b.image :=
    programmed_eq_self h.analog0 h.analog1 h.divider h.den h.power
  rw [programmed, tapped, Field.put_eq_self h.tap, Image.store_eq_self rfl]

end Pll.Started

namespace Tree

theorem select_divided (t : Tree) (control : Word) :
    TreeControl.select t.source (t.divided control) = Field.putAll t.writes control := rfl

theorem writes_disjoint (t : Tree) : t.writes.Pairwise fun v w => v.1.Disjoint w.1 := by
  simp only [writes, List.pairwise_cons, List.mem_cons, forall_eq_or_imp]
  decide

/-- The source that the tree comes from does not matter. -/
theorem putAll_writes_select (t : Tree) (s : McuSource) (control : Word) :
    Field.putAll t.writes (TreeControl.select s control) = Field.putAll t.writes control := by
  have written : (TreeControl.source, t.source.code) ∈ t.writes := by simp [writes]
  exact Field.putAll_put t.writes_disjoint written s.code control

end Tree

namespace Task

/-- The hardware shows the task done. -/
def Done (k : Task) (b : Board) : Prop :=
  match k with
  | .park => McuSource.selectedBy (b.image.load .treeControl) = .coreHs
  | .oscillator o => o.enable.get b.oscillators = o.enable.keep 1 ∧
      OscillatorControl.useRc.get b.oscillators =
        OscillatorControl.useRc.keep (decide (o = .rc)).toNat
  | .powerDown p => b.image.load (.pll p .power) = p.recipe.powerDown
  | .start p d _ _ => p.Started d b
  | .tree t => ∀ w ∈ t.writes, w.1.get (b.image.load .treeControl) = w.1.keep w.2

/-- A task works on registers outside the bridge. -/
theorem footprint_ordinary {k : Task} {r : Register} (h : r ∈ k.footprint.registers) :
    r ≠ .bridgeControl ∧ r ≠ .bridgeData := by
  have tree (h : r ∈ Footprint.tree.registers) : r ≠ .bridgeControl ∧ r ≠ .bridgeData := by
    obtain rfl := List.mem_singleton.1 h
    decide
  have pll {p : Pll} (h : r ∈ (Footprint.pll p).registers) :
      r ≠ .bridgeControl ∧ r ≠ .bridgeData := by
    obtain ⟨part, -, rfl⟩ := List.mem_map.1 h
    exact ⟨nofun, nofun⟩
  cases k with
  | park => exact tree h
  | oscillator o => exact absurd h List.not_mem_nil
  | powerDown p => exact pll h
  | start p d f lockWait => exact pll h
  | tree t => exact tree h

variable {k : Task} {rig rig' : Rig}

/-- A board that shows in the footprint what the work makes of some block and control shows the task
done. -/
theorem done_of_effect {b : Board} {m : Image} {control : Byte}
    (load : ∀ r ∈ k.footprint.registers, b.image.load r = (k.image m).load r)
    (oscillators : b.oscillators = k.oscillators control) : k.Done b := by
  cases k with
  | park =>
    show McuSource.selectedBy _ = _
    rw [load _ (List.mem_singleton_self _), Task.image, Image.load_store_self,
      McuSource.selectedBy_select]
  | oscillator o =>
    have apart : o.enable.Disjoint OscillatorControl.useRc := by cases o <;> decide
    constructor
    · rw [oscillators, Task.oscillators, Oscillator.selected, Field.get_put_of_disjoint apart,
        Field.get_put]
    · rw [oscillators, Task.oscillators, Oscillator.selected, Field.get_put]
  | powerDown p =>
    show b.image.load (.pll p .power) = _
    rw [load _ (Footprint.mem_pll p .power), Task.image, Image.load_store_self]
  | start p d f lockWait =>
    have part (part : PllPart) (other : part ≠ .output) :
        b.image.load (.pll p part) = (p.programmed d m).load (.pll p part) := by
      rw [load _ (Footprint.mem_pll p part), Task.image, Pll.tapped_load]
      simp [other]
    have output : b.image.load (.pll p .output) = PllOutput.halfTap.put 1
        (PllOutput.den.put d.den.toNat (m.load (.pll p .output))) := by
      rw [load _ (Footprint.mem_pll p .output), Task.image, Pll.tapped, Image.load_store_self,
        Pll.programmed_output]
    obtain ⟨analog0, analog1⟩ := Pll.programmed_analog p d m
    constructor
    · rw [part .analog0 (by decide), analog0]
    · rw [part .analog1 (by decide), analog1]
    · rw [part .divider (by decide), Pll.programmed_divider]
    · rw [output, Field.get_put_of_disjoint (by decide), Field.get_put]
    · rw [output, Field.get_put]
    · rw [part .power (by decide), Pll.programmed_power]
    · rw [oscillators, Task.oscillators, Field.get_put]
  | tree t =>
    intro w hw
    rw [load _ (List.mem_singleton_self _), Task.image, Image.load_store_self,
      Tree.select_divided, Field.get_putAll t.writes_disjoint _ hw]

theorem Takes.done (h : k.Takes rig rig') : k.Done rig'.board := by
  have load : ∀ r ∈ k.footprint.registers,
      rig'.board.image.load r = (k.image rig.board.image).load r :=
    fun r hr => h.image.load (footprint_ordinary hr).1 (footprint_ordinary hr).2
  exact done_of_effect load h.oscillators

/-- Whether a task is done shows in its footprint alone. -/
theorem Done.congr {b b' : Board} (h : k.Done b)
    (registers : ∀ r ∈ k.footprint.registers, b'.image.load r = b.image.load r)
    (flags : ∀ g ∈ k.footprint.flags, g.get b'.oscillators = g.get b.oscillators) :
    k.Done b' := by
  cases k with
  | park =>
    have control := registers .treeControl (List.mem_singleton_self _)
    rwa [Done, control]
  | tree t =>
    have control := registers .treeControl (List.mem_singleton_self _)
    rwa [Done, control]
  | oscillator o =>
    obtain ⟨enabled, chosen⟩ := h
    exact ⟨(flags _ o.enable_mem).trans enabled, (flags _ Oscillator.useRc_mem).trans chosen⟩
  | powerDown p => exact (registers _ (Footprint.mem_pll p .power)).trans h
  | start p d f lockWait =>
    have part (part : PllPart) : b'.image.load (.pll p part) = b.image.load (.pll p part) :=
      registers _ (Footprint.mem_pll p part)
    constructor
    · exact (part .analog0).trans h.analog0
    · exact (part .analog1).trans h.analog1
    · exact (part .divider).trans h.divider
    · rw [part .output, h.den]
    · rw [part .output, h.tap]
    · exact (part .power).trans h.power
    · exact (flags _ (List.mem_singleton_self _)).trans h.reference

theorem Done.kept {k' : Task} (h : k.Done rig.board) (takes : k'.Takes rig rig')
    (apart : k.footprint.Apart k'.footprint) : k.Done rig'.board := by
  apply h.congr
  · intro r hr
    obtain ⟨hc, hd⟩ := footprint_ordinary hr
    exact takes.load (apart.registers r hr) hc hd
  · intro g hg
    exact takes.flag (apart.flags g hg)

/-- Doing again what is done changes no register. -/
theorem Done.image {b : Board} (h : k.Done b) : k.image b.image = b.image := by
  cases k with
  | park =>
    have parked : McuSource.selectedBy (b.image.load .treeControl) = .coreHs := h
    have same : TreeControl.select .coreHs (b.image.load .treeControl) =
        b.image.load .treeControl := by
      rw [← parked, McuSource.select_selectedBy]
    rw [Task.image, same, Image.store_eq_self rfl]
  | oscillator o => rfl
  | powerDown p => exact Image.store_eq_self h
  | start p d f lockWait => exact Pll.Started.image h
  | tree t =>
    rw [Task.image, Tree.select_divided, Field.putAll_eq_self h, Image.store_eq_self rfl]

/-- Nor any flag of the oscillator control. -/
theorem Done.oscillators {b : Board} (h : k.Done b) :
    k.oscillators b.oscillators = b.oscillators := by
  cases k with
  | oscillator o =>
    obtain ⟨enabled, chosen⟩ := h
    rw [Task.oscillators, Oscillator.selected, Field.put_eq_self enabled, Field.put_eq_self chosen]
  | start p d f lockWait => exact Field.put_eq_self (Pll.Started.reference h)
  | park => rfl
  | powerDown p => rfl
  | tree t => rfl

end Task
end ClockControl
