import Idk.Base

/-!
# Checks on texts and paths

The field checks that every stored record shares (`model.rs`, `saved_state.rs`).
-/

namespace Idk

/-- `char::is_control`, the general category `Cc`. -/
def isControl (char : Char) : Bool :=
  char.toNat < 0x20 || (0x7f ≤ char.toNat && char.toNat < 0xa0)

theorem visible_of_not_control {char : Char} (visible : isControl char = false) :
    0x20 ≤ char.toNat := by
  simp only [isControl, Bool.or_eq_false_iff, decide_eq_false_iff_not] at visible
  omega

/-- `char::is_whitespace`, the property `White_Space`. -/
def isWhitespace (char : Char) : Bool :=
  let code := char.toNat
  (0x09 ≤ code && code ≤ 0x0d) || code == 0x20 || code == 0x85 || code == 0xa0 ||
    code == 0x1680 || (0x2000 ≤ code && code ≤ 0x200a) || code == 0x2028 || code == 0x2029 ||
    code == 0x202f || code == 0x205f || code == 0x3000

def isAsciiHexdigit (char : Char) : Bool :=
  ('0' ≤ char && char ≤ '9') || ('a' ≤ char && char ≤ 'f') || ('A' ≤ char && char ≤ 'F')

def hasControl (value : String) : Bool := value.toList.any isControl

/-- The value trimmed at both ends is not empty iff some character is visible. -/
def validName (value : String) : Result Unit :=
  ensure (value.toList.any (!isWhitespace ·) && value.length ≤ 100 && !hasControl value)
    "name must be 1–100 visible characters"

/-- A path is absolute when its first component is the root. -/
def absolutePath (path : PathBuf) : Result Unit :=
  ensure (path.head? == some "/" && !path.any hasControl)
    "an absolute UTF-8 path without control characters is required"

def digest (value : String) : Result Unit :=
  ensure (value.utf8ByteSize == 64 && value.toList.all isAsciiHexdigit) "invalid saved digest"

def objectId (value : String) : Result Unit :=
  ensure ((value.utf8ByteSize == 40 || value.utf8ByteSize == 64) &&
    value.toList.all isAsciiHexdigit) "invalid saved Git object identity"

end Idk
