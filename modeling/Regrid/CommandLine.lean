import Regrid.Selfcheck
import Regrid.Text.Integer

/-!
# The command line of the self-check

The command line is a row of words.  A word that begins with a hyphen names an
option, by its name or by a beginning of it that fits no other, and may carry a
value behind an equals sign; all other words are values of the option before them.
Negative numbers and words with a blank are values in spite of their hyphen, and
behind a bare double hyphen every word is one.  A word that belongs to no option is
an error, which is told last; a request for help ends the reading where it stands.

A short name may be followed by further letters, which are short names again.  A
double hyphen behind an equals sign strikes the value out and leaves the option
blank.
-/
namespace Regrid
namespace CommandLine

/-- **The options.** -/
inductive Flag where
  | ranks
  | points
  | seed
  | backend
  | verbose
  | help
deriving DecidableEq, Repr

/-- The names of the options. -/
def names : List (String × Flag) :=
  [("-h", .help), ("--help", .help), ("--ranks", .ranks), ("--points", .points),
    ("--seed", .seed), ("--backend", .backend), ("--verbose", .verbose)]

/-- The exit code of a command line that asks for help. -/
def helpCode : Nat := 0

/-- The exit code of a command line that cannot be read. -/
def usageCode : Nat := 2

/-- The text that tells how the options are used. -/
def usage : String :=
  "usage: regrid [-h] [--ranks RANKS [RANKS ...]] [--points POINTS] [--seed SEED]\n" ++
    "              [--backend BACKEND] [--verbose]"

/-! ## Words -/

/-- **What a word is**: an option, perhaps with a value; a short name with more letters
behind it; an option that does not exist; or a value. -/
inductive Word where
  | flag (f : Flag) (value : Option String)
  | short (f : Flag) (tail : List Char)
  | stray
  | value (text : String)
deriving DecidableEq, Repr

/-- The text before the first equals sign, and the one behind it if there is one. -/
def splitValue (s : String) : String × Option String :=
  let cs := s.toList
  let name := String.ofList (cs.takeWhile (· != '='))
  match cs.dropWhile (· != '=') with
  | [] => (name, none)
  | _ :: rest => (name, some (String.ofList rest))

/-- Decimal digits, at least one. -/
def areDigits (cs : List Char) : Bool := !cs.isEmpty && cs.all fun c => (Text.digit? c).isSome

/-- A negative number: a hyphen and digits, perhaps with a point before the last of
them; a line end behind it does no harm. -/
def isNegativeNumber (s : String) : Bool :=
  match s.toList with
  | '-' :: cs =>
    let body := if cs.getLast? = some '\n' then cs.dropLast else cs
    let whole := body.takeWhile (· != '.')
    match body.dropWhile (· != '.') with
    | [] => areDigits whole
    | _ :: fraction => (whole.isEmpty || areDigits whole) && areDigits fraction
  | _ => false

/-- The options whose name begins with a text. -/
def completions (start : String) : List Flag :=
  (names.filter fun n => start.toList.isPrefixOf n.1.toList).map Prod.snd

/-- A text that no option explains. -/
def otherWord (s : String) : Word :=
  if isNegativeNumber s || s.toList.contains ' ' then .value s else .stray

/-- An option with a text behind an equals sign.  A short name does without the sign,
so there the text is more letters. -/
def withText (name : String) (f : Flag) (text : String) : Word :=
  if name.length = 2 ∧ text ≠ "" then .short f text.toList else .flag f (some text)

/-- What a text is; nothing, where it could be several options. -/
def word? (s : String) : Option Word :=
  match s.toList with
  | '-' :: second :: rest =>
    match names.lookup s with
    | some f => some (.flag f none)
    | none =>
      let (name, value) := splitValue s
      match value, names.lookup name with
      | some text, some f => some (withText name f text)
      | _, _ =>
        if second = '-' then
          match completions name with
          | [] => some (otherWord s)
          | [f] => some (.flag f value)
          | _ => none
        else
          match names.lookup (String.ofList ['-', second]) with
          | some f => some (.short f rest)
          | none => some (otherWord s)
  | _ => some (.value s)

/-- The words of a command line; nothing, if one of them could be several options.
Behind a bare double hyphen there are only values, and the double hyphen is one that
no option takes. -/
def words? : List String → Option (List Word)
  | [] => some []
  | "--" :: rest => some (.stray :: rest.map .value)
  | s :: rest => (word? s).bind fun w => (words? rest).map (w :: ·)

/-! ## Reading -/

/-- **What has been read so far**, and whether a word was left over. -/
structure Progress where
  options : Selfcheck.Options
  verbose : Bool
  leftOver : Bool
deriving DecidableEq, Repr

/-- The reading before the first word. -/
def Progress.start : Progress := ⟨Selfcheck.Options.default, false, false⟩

/-- The exit code of a request for help with more letters behind it, each of which has
to ask for help again. -/
def helpTail (tail : List Char) : Nat := if tail.all (· = 'h') then helpCode else usageCode

/-- The values at the front of the words, and the words behind them. -/
def takeValues : List Word → List String × List Word
  | .value v :: rest =>
    let (vs, others) := takeValues rest
    (v :: vs, others)
  | words => ([], words)

/-- An integer, or the error that it is none. -/
def integer (s : String) : Except Nat Int :=
  match Text.integer? s with
  | some n => .ok n
  | none => .error usageCode

/-- The text that strikes a value out. -/
def struck : String := "--"

/-- A value read, where it is not struck out. -/
def unlessStruck {β : Type} (read : String → Except Nat β) (value : String) :
    Except Nat (Option β) :=
  if value = struck then .ok none else (read value).map some

/-- The reading after an option with its one value. -/
def setOne (p : Progress) (f : Flag) (value : String) : Except Nat Progress :=
  let o := p.options
  match f with
  | .points => do return { p with options := { o with points := ← unlessStruck integer value } }
  | .seed => do return { p with options := { o with seed := ← unlessStruck integer value } }
  | .backend => do
    let name ← unlessStruck .ok value
    return { p with options := { o with backends := some (o.backends.getD [] ++ [name]) } }
  | .ranks => do
    let rank ← unlessStruck integer value
    return { p with options := { o with ranks := rank.toList } }
  | .verbose | .help => .error usageCode

/-- The reading after a list of ranks. -/
def setRanks (p : Progress) (values : List String) : Except Nat Progress := do
  if values.isEmpty then
    throw usageCode
  let ranks ← values.mapM integer
  return { p with options := { p.options with ranks := ranks } }

/-- One option, and the words behind its values. -/
def option (p : Progress) (f : Flag) (value : Option String) (rest : List Word) :
    Except Nat (Progress × List Word) :=
  match f, value with
  | .help, none => .error helpCode
  | .verbose, none => .ok ({ p with verbose := true }, rest)
  | f, some v => do return (← setOne p f v, rest)
  | .ranks, none => do
    let (values, others) := takeValues rest
    return (← setRanks p values, others)
  | f, none =>
    match rest with
    | .value v :: others => do return (← setOne p f v, others)
    | _ => .error usageCode

/-- The reading of all words, at most `fuel` of them. -/
def readWords : Nat → Progress → List Word → Except Nat Progress
  | _, p, [] => .ok p
  | 0, p, _ => .ok p
  | fuel + 1, p, w :: rest =>
    match w with
    | .flag f value => do
      let (next, others) ← option p f value rest
      readWords fuel next others
    | .short _ tail => .error (helpTail tail)
    | .stray | .value _ => readWords fuel { p with leftOver := true } rest

/-- What a command line asks for, or the code to exit with. -/
def parse (arguments : List String) : Except Nat Progress :=
  match words? arguments with
  | none => .error usageCode
  | some words => do
    let p ← readWords words.length Progress.start words
    if p.leftOver then
      throw usageCode
    return p

/-! ## Running -/

/-- **Why there is no report**: the command line cannot be read, or the check is
refused. -/
inductive Failure (α : Type) where
  | exit (code : Nat)
  | fault (f : Fault α)

/-- The report that a command line asks for. -/
def report {α : Type} [Scalar α] (arguments : List String) :
    Except (Failure α) (Selfcheck.Report α) :=
  match parse arguments with
  | .error code => .error (.exit code)
  | .ok p => (Selfcheck.run p.options).mapError .fault

/-! ## Samples -/

/-- The ranks that a command line asks for, if it can be read. -/
def ranks? (arguments : List String) : Option (List Int) :=
  (parse arguments).toOption.map fun p => p.options.ranks

/-- The code to exit with, if there is no self-check. -/
def exitCode? (arguments : List String) : Option Nat :=
  match parse arguments with
  | .ok _ => none
  | .error code => some code

/-- Ranks are read up to the next option; a value struck out leaves none. -/
example : ([["--ranks", "1", "2"], ["--r=3", "--verbose"], ["--ranks=--"]].map ranks?) =
    [some [1, 2], some [3], some []] := by decide +kernel

/-- A request for help ends the reading, with further letters only if they ask for help
as well. -/
example : ([["-h"], ["-hh"], ["-h=h"], ["-hx"], ["-h="], ["x", "-h"]].map exitCode?) =
    [some 0, some 0, some 0, some 2, some 2, some 0] := by decide +kernel

end CommandLine
end Regrid
