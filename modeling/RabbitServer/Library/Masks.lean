import Mathlib.Data.Finset.Basic
import Mathlib.Data.Fintype.Defs
import Mathlib.Logic.Embedding.Basic

/-! A mask of bits as the set of its flags: bitwise operations are operations on sets. -/

namespace Library.Masks

variable {Flag : Type*} {w : Nat}

/-- The mask with the one flag. -/
def ofFlag (bit : Flag ↪ Fin w) (flag : Flag) : BitVec w := BitVec.twoPow w (bit flag)

def flags [Fintype Flag] (bit : Flag ↪ Fin w) (mask : BitVec w) : Finset Flag :=
  Finset.univ.filter fun flag => mask.getLsbD (bit flag)

variable {bit : Flag ↪ Fin w} {mask other : BitVec w} {flag : Flag}

theorem ofFlag_ne_zero : ofFlag bit flag ≠ 0#w := by
  intro zero
  have set := congrArg (fun mask : BitVec w => mask.getLsbD (bit flag)) zero
  simp [ofFlag] at set

section
variable [Fintype Flag]

@[simp] theorem mem_flags : flag ∈ flags bit mask ↔ mask.getLsbD (bit flag) = true := by
  simp [flags]

/-- How a mask is asked for a flag. -/
theorem and_ofFlag_ne_zero : mask &&& ofFlag bit flag ≠ 0#w ↔ flag ∈ flags bit mask := by
  rw [ofFlag, BitVec.and_twoPow, mem_flags]
  split
  next set => exact iff_of_true ofFlag_ne_zero set
  next clear => exact iff_of_false (not_not_intro rfl) clear

theorem flags_zero : flags bit 0#w = ∅ := by
  ext flag
  simp

variable [DecidableEq Flag]

theorem flags_or : flags bit (mask ||| other) = flags bit mask ∪ flags bit other := by
  ext flag
  simp

/-- Bits are cleared by the complement of the mask that has them. -/
theorem flags_clear : flags bit (mask &&& ~~~other) = flags bit mask \ flags bit other := by
  ext flag
  simp

theorem flags_ofFlag : flags bit (ofFlag bit flag) = {flag} := by
  ext other
  have same : (bit other : Nat) = bit flag ↔ other = flag :=
    Fin.val_inj.trans bit.injective.eq_iff
  simp [ofFlag, same]

end

end Library.Masks
