import Idk.Model.Editor

/-!
# Quoted words

What `discovery.rs` and `client.rs` write around an argument of a command line.
-/

namespace Idk.Model

/-- `format!("'{}'", value.replace('\'', escape))`. -/
def singleQuoted (escape value : String) : String :=
  "'" ++ String.ofList (replaceAll ['\''] escape.toList 0 value.toList) ++ "'"

/-- `quote_arg`. -/
def quoteArg (value : String) : Result String := do
  ensure (!containsNul value) "argument contains NUL"
  return singleQuoted "'\\''" value

/-- `command_word`; the word is the text as the system has it, in bytes. -/
def commandWord (value : List UInt8) : Result String := do
  let value ← context (String.fromUTF8? ⟨value.toArray⟩) "recovery command path is not UTF-8"
  ensure (!hasControl value) "recovery command path contains control characters"
  return singleQuoted "'\"'\"'" value

end Idk.Model
