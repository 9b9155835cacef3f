/-
The texts of literals. A truth value is a word, an integer its decimal digits and a text itself; and the
text of a float is one that is read as this float again.
-/
import Interconnect.Manifest.Declaration
import Interconnect.Proofs.Toml.Floats

namespace Interconnect.Manifest

open Toml

/-- What the text of a literal can be. -/
inductive Literal.WrittenAs : Literal → String → Prop where
  | yes : WrittenAs (.boolean true) "true"
  | no : WrittenAs (.boolean false) "false"
  | integer (n : ℤ) : WrittenAs (.integer n) (toString n)
  | float {x : Binary64} {s : String} {t : FloatText} (hx : x ≠ .nan)
    (hread : Scalar.read s = some (.float t)) (hvalue : t.value? = some x) : WrittenAs (.float x) s
  | nan : WrittenAs (.float .nan) "NaN"
  | text (s : String) : WrittenAs (.text s) s

/-- The text of a literal as the value of a port is one of its texts. -/
theorem Literal.writtenAs_render (l : Literal) : l.WrittenAs l.render := by
  cases l with
  | boolean b =>
    cases b with
    | true => exact .yes
    | false => exact .no
  | integer n => exact .integer n
  | float x =>
    by_cases hx : x = .nan
    · rw [hx]
      exact .nan
    · obtain ⟨t, hread, hvalue⟩ := floatLayout.read_text hx
      exact .float hx hread hvalue
  | text s => exact .text s

end Interconnect.Manifest
