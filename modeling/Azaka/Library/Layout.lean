import Azaka.Library.Codec
import Azaka.Library.Store

namespace Wire
open Keyed

namespace Codec
variable {ω κ ν α : Type*}

theorem encode_inj (c : Codec ω α) {a b : α} (h : c.encode a = c.encode b) : a = b := by
  have ha := c.decode_encode a
  rw [h, c.decode_encode b] at ha
  exact (Option.some.inj ha).symm

/-- Cells by what their keys are encoded as. A word that encodes no key holds
nothing. -/
def layout (c : Codec ω κ) (cells : Store κ ν) : Store ω ν := fun w => (c.decode w).bind cells

variable (c : Codec ω κ)

@[simp] theorem layout_encode (cells : Store κ ν) (k : κ) :
    c.layout cells (c.encode k) = cells k := by
  simp [layout]

theorem layout_empty : c.layout (Store.empty : Store κ ν) = Store.empty := by
  funext w
  cases h : c.decode w <;> simp [layout, h]

theorem layout_inj {f g : Store κ ν} (h : c.layout f = c.layout g) : f = g := by
  funext k
  have hk := congrFun h (c.encode k)
  rwa [layout_encode, layout_encode] at hk

variable [DecidableEq ω] [DecidableEq κ]

/-- Keys do not collide: a write under the encoding of one key leaves the cells
of all others. -/
theorem layout_update (cells : Store κ ν) (k : κ) (o : Option ν) :
    Function.update (c.layout cells) (c.encode k) o = c.layout (Function.update cells k o) := by
  funext w
  by_cases hw : w = c.encode k
  · subst hw
    simp
  · rw [Function.update_of_ne hw]
    cases hd : c.decode w with
    | none => simp [layout, hd]
    | some j =>
      have hj : j ≠ k := fun he => hw (he ▸ ((c.exact w j).mp hd).symm)
      simp [layout, hd, hj]

end Codec
end Wire
