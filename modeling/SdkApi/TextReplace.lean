import Mathlib.Data.List.Basic

/-!
# Replacing a text everywhere

Every occurrence of a text that is not empty is replaced, from the left to the
right and without overlaps. What has been put in is not looked at again.
-/

namespace SdkApi.TextReplace

variable {α : Type*} [DecidableEq α] (old new : List α)

/-- `skip` elements belong to an occurrence that has been replaced. -/
def replaceFrom (skip : ℕ) : List α → List α
  | [] => []
  | c::cs =>
    if 0 < skip then replaceFrom (skip-1) cs
    else if old.isPrefixOf (c::cs) then new++replaceFrom (old.length-1) cs
    else c::replaceFrom 0 cs

def replaceAll (s : List α) : List α := replaceFrom old new 0 s

end SdkApi.TextReplace
