import Janus.Python.Datetime
import Janus.Text.Numerals

/-!
# Dates as texts

`strftime`, for the directives of a date.
-/

set_option autoImplicit false

namespace Python

namespace Date

/-- `%Y`, `%m` and `%d`. -/
def directive (d : Date) : Char → Option (List Char)
  | 'Y' => some (Text.padded 4 d.year)
  | 'm' => some (Text.padded 2 d.month)
  | 'd' => some (Text.padded 2 d.day)
  | _ => none

/-- The characters of a format; those of a directive it does not have stay. -/
def strftimeChars (d : Date) : List Char → List Char
  | '%' :: c :: format => (d.directive c).getD ['%', c] ++ d.strftimeChars format
  | c :: format => c :: d.strftimeChars format
  | [] => []

def strftime (d : Date) (format : String) : String := String.ofList (d.strftimeChars format.toList)

theorem ext_fields {d d' : Date} (hyear : d.year = d'.year) (hmonth : d.month = d'.month)
    (hday : d.day = d'.day) : d = d' := by
  cases d
  cases d'
  simp_all

end Date

end Python
