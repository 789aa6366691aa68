import Regrid.Position.Text
import Regrid.Selfcheck

/-!
# The text of a report

A report is printed as an object of named entries, in the order of their names.
Every entry of an object and every element of a list has a line of its own, two
blanks further in than the line that opens it; what is empty stays on one line.
-/
namespace Regrid
namespace Selfcheck

/-! ## Blocks of lines -/

/-- A line moved in. -/
def indented (line : String) : String := "  " ++ line

/-- The first line continues a text, the others stay as they are. -/
def continuing (head : String) : List String → List String
  | [] => [head]
  | line :: lines => (head ++ line) :: lines

/-- The last line is closed by a comma. -/
def withComma : List String → List String
  | [] => []
  | [line] => [line ++ ","]
  | line :: lines => line :: withComma lines

/-- The lines of all entries, with a comma between one entry and the next. -/
def separated : List (List String) → List String
  | [] => []
  | [entry] => entry
  | entry :: entries => withComma entry ++ separated entries

/-- The lines of a block between two brackets. -/
def block (opening closing : String) (entries : List (List String)) : List String :=
  if entries.isEmpty then [opening ++ closing]
  else opening :: ((separated entries).map indented ++ [closing])

/-- An entry with its name. -/
def named (name : String) (lines : List String) : List String :=
  continuing ("\"" ++ name ++ "\": ") lines

/-- An object of named entries. -/
def object (entries : List (String × List String)) : List String :=
  block "\x7b" "\x7d" (entries.map fun e => named e.1 e.2)

/-- A list. -/
def list (entries : List (List String)) : List String := block "[" "]" entries

/-! ## The report -/

/-- The names in ascending order. -/
def byName {β : Type} (entries : List (String × β)) : List (String × β) :=
  entries.mergeSort fun a b => decide (a.1 ≤ b.1)

/-- The lines of a report. -/
def Report.lines (r : Report Float) : List String :=
  object
    [("backend_max_abs_diff", object ((byName r.differences).map fun d => (d.1, [realText d.2]))),
      ("max_roundtrip_err", [realText r.gridError]),
      ("max_weight_sum_dev", [realText r.weightDeviation]),
      ("n_points", [toString r.points]),
      ("ranks", list (r.ranks.map fun rank => [toString rank]))]

/-- The text of a report. -/
def Report.text (r : Report Float) : String := String.intercalate "\n" r.lines

/-- An empty block stays on one line, and the last entry has no comma. -/
example : object [("a", list []), ("b", list [["1"], ["2"]])] =
    ["\x7b", "  \"a\": [],", "  \"b\": [", "    1,", "    2", "  ]", "\x7d"] := by decide +kernel

end Selfcheck
end Regrid
