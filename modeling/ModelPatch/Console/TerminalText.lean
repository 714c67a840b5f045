/-!
# Terminal text

What a run prints goes to a file or to another program as often as to a terminal. Terminal commands
that names in the input may hold are therefore not passed on. Such a command starts with an escape
character and a bracket, goes on with digits, semicolons and question marks, and ends with a letter.

## Main definitions

* `Text.dropTerminalCommands`: a text without terminal commands;
* `Text.printed`: a line as it is printed.
-/

namespace ModelPatch.Text

/-- The character that starts a terminal command. -/
def escapeCharacter : Char := '\x1B'

/-- Whether a character may stand inside a terminal command. -/
def isTerminalParameter (c : Char) : Bool :=
  c = ';' || c = '?' || c.isDigit

/-- The text behind a terminal command, where `cs` starts behind its bracket; `none` if no letter
ends the command. -/
def afterTerminalCommand? (cs : List Char) : Option (List Char) :=
  match cs.dropWhile isTerminalParameter with
  | c :: rest => if c.isAlpha then some rest else none
  | [] => none

theorem length_lt_of_afterTerminalCommand? {cs rest : List Char}
    (h : afterTerminalCommand? cs = some rest) : rest.length < cs.length := by
  have hle := (List.dropWhile_sublist (l := cs) isTerminalParameter).length_le
  unfold afterTerminalCommand? at h
  split at h
  · rename_i c tail heq
    split at h
    · simp only [Option.some.injEq] at h
      subst h
      simp only [heq, List.length_cons] at hle
      omega
    · simp at h
  · simp at h

/-- The text without terminal commands. -/
def dropTerminalCommands (cs : List Char) : List Char :=
  match cs with
  | [] => []
  | [c] => [c]
  | c :: d :: rest =>
    if c = escapeCharacter ∧ d = '[' then
      match _h : afterTerminalCommand? rest with
      | some after => dropTerminalCommands after
      | none => c :: dropTerminalCommands (d :: rest)
    else
      c :: dropTerminalCommands (d :: rest)
termination_by cs.length
decreasing_by
  · have := length_lt_of_afterTerminalCommand? _h
    simp only [List.length_cons]
    omega
  · simp only [List.length_cons, Nat.lt_add_one]
  · simp only [List.length_cons, Nat.lt_add_one]

/-- A line as it is printed: without terminal commands, and with a line feed. -/
def printed (line : String) : String :=
  String.ofList (dropTerminalCommands line.toList) ++ "\n"

end ModelPatch.Text
