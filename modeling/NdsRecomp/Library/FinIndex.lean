import Mathlib.Tactic

/-!
The sizes of the index types whose elements are written as numerals.
-/

namespace NdsRecomp.Library

instance neZero_two : NeZero 2 := ⟨by decide⟩

instance neZero_four : NeZero 4 := ⟨by decide⟩

instance neZero_nine : NeZero 9 := ⟨by decide⟩

instance neZero_sixteen : NeZero 16 := ⟨by decide⟩

end NdsRecomp.Library
