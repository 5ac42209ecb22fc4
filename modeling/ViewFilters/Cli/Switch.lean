import ViewFilters.Text.Decimal

/-!
# ViewFilters.Cli.Switch

Switches on the command line:

```
--project ID   --project=ID   -p ID   -pID   -p=ID   -vpID   --json
```

1. A word that begins with `-` is a switch, unless it is `-` alone.  After `--`
   every word is an operand.
2. Letters may be put together; the first that takes a value takes the rest of
   its word, less an equals sign, or else the next word.
3. The next word can be a value only if it is no switch itself.
4. A switch that asks about the program ends the reading: what stands after it,
   in its own word too, is not looked at.
-/

namespace ViewFilters.Cli

/-- A 32-bit number: digits, perhaps after one sign.  Only zero may be negative. -/
def number? (text : String) : Option UInt32 :=
  match text.toList with
  | '+' :: cs => Decimal.uint32? cs
  | '-' :: cs => (Decimal.uint32? cs).filter (· = 0)
  | cs => Decimal.uint32? cs

/-- What can be asked about the program. -/
inductive Question where
  /-- How it is used, in full or in brief. -/
  | help (full : Bool)
  | version
  deriving DecidableEq

/-- The switches of the program. -/
inductive Switch where
  | configDir
  | project
  | verbose
  | json
  | joined
  | size
  | save
  | help
  | version
  deriving DecidableEq

namespace Switch

/-- The name after two dashes. -/
def name : Switch → String
  | configDir => "config-dir"
  | project => "project"
  | verbose => "verbose"
  | json => "json"
  | joined => "joined"
  | size => "size"
  | save => "save"
  | help => "help"
  | version => "version"

/-- The letter after one dash. -/
def letter? : Switch → Option Char
  | project => some 'p'
  | verbose => some 'v'
  | help => some 'h'
  | version => some 'V'
  | _ => none

/-- What its value is called, if one follows. -/
def valueName? : Switch → Option String
  | configDir => some "DIR"
  | project => some "ID"
  | size => some "SIZE"
  | _ => none

/-- Whether a value follows. -/
def takesValue (s : Switch) : Bool := s.valueName?.isSome

/-- Whether a value can be used.  A directory has to have a name. -/
def accepts : Switch → String → Bool
  | configDir, value => value ≠ ""
  | size, value => (number? value).isSome
  | _, _ => true

/-- What the switch asks.  By its name, help is asked for in full. -/
def question? (byName : Bool) : Switch → Option Question
  | help => some (.help byName)
  | version => some .version
  | _ => none

/-- The switches that every command takes. -/
def common : List Switch := [configDir, project, verbose]

end Switch

/-- A word of the command line, understood. -/
inductive Argument where
  | operand (text : String)
  | given (s : Switch) (value : Option String)
  | asked (q : Question)
  deriving DecidableEq

/-- A switch without a value. -/
def Argument.ofSwitch (byName : Bool) (s : Switch) : Argument :=
  (s.question? byName).elim (given s none) asked

/-! ## looking things up -/

/-- The operands among arguments, in order. -/
def operands (arguments : List Argument) : List String :=
  arguments.filterMap fun
    | .operand text => some text
    | _ => none

/-- The switches among arguments, in order. -/
def switches (arguments : List Argument) : List Switch :=
  arguments.filterMap fun
    | .given s _ => some s
    | _ => none

/-- Whether a switch is among arguments. -/
def hasSwitch (arguments : List Argument) (s : Switch) : Bool := s ∈ switches arguments

/-- The value of a switch among arguments. -/
def valueOf? (arguments : List Argument) (s : Switch) : Option String :=
  arguments.findSome? fun
    | .given t value => if t = s then value else none
    | _ => none

/-- What is asked among arguments. -/
def question? (arguments : List Argument) : Option Question :=
  arguments.findSome? fun
    | .asked q => some q
    | _ => none

/-- Whether the switches among arguments can be used together: each stands once,
with a value that it accepts. -/
def areUsable (arguments : List Argument) : Bool :=
  (switches arguments).Nodup && arguments.all fun
    | .given s (some value) => s.accepts value
    | _ => true

/-! ## a single word -/

/-- What a single word says: arguments, and perhaps a switch whose value follows. -/
structure Word where
  arguments : List Argument
  awaiting : Option Switch

/-- Whether a word is a switch or ends the switches. -/
def isDashed (word : String) : Bool :=
  match word.toList with
  | '-' :: _ :: _ => true
  | _ => false

/-- A word after its two dashes. -/
def readName? (known : List Switch) (cs : List Char) : Option Word := do
  let name := String.ofList (cs.takeWhile (· ≠ '='))
  let s ← known.find? fun s => s.name = name
  match cs.dropWhile (· ≠ '='), s.takesValue with
  | [], true => some ⟨[], some s⟩
  | [], false => some ⟨[.ofSwitch true s], none⟩
  | _ :: value, true => some ⟨[.given s (some (String.ofList value))], none⟩
  | _ :: _, false => none

/-- A word after its single dash. -/
def readLetters? (known : List Switch) : List Char → Option Word
  | [] => some ⟨[], none⟩
  | c :: cs => do
    let s ← known.find? fun s => s.letter? = some c
    match s.takesValue, cs, s.question? false with
    | true, [], _ => some ⟨[], some s⟩
    | true, '=' :: value, _ => some ⟨[.given s (some (String.ofList value))], none⟩
    | true, value, _ => some ⟨[.given s (some (String.ofList value))], none⟩
    | false, _, some q => some ⟨[.asked q], none⟩
    | false, _, none =>
      let w ← readLetters? known cs
      some { w with arguments := .given s none :: w.arguments }

/-- A word that begins with a dash. -/
def readDashed? (known : List Switch) (word : String) : Option Word :=
  match word.toList with
  | '-' :: '-' :: cs => readName? known cs
  | _ :: cs => readLetters? known cs
  | [] => none

/-! ## all words -/

/-- The words before the first operand. -/
structure Leading where
  arguments : List Argument
  /-- Whether the last of them has its value from the last word. -/
  late : Bool
  /-- The words from the first operand on. -/
  rest : List String

/-- More arguments in front. -/
def Leading.after (next : Leading) (arguments : List Argument) : Leading :=
  { next with arguments := arguments ++ next.arguments }

/-- The arguments that are complete before the first operand is seen. -/
def Leading.settled (l : Leading) : List Argument :=
  if l.late then l.arguments.dropLast else l.arguments

/-- Read the words before the first operand.  `awaiting` is a switch whose value
comes next. -/
def readLeading? (known : List Switch) : Option Switch → List String → Option Leading
  | none, [] => some ⟨[], false, []⟩
  | some _, [] => none
  | some s, word :: words =>
    if isDashed word then none
    else do
      let next ← readLeading? known none words
      some ({ next with late := next.late || next.arguments.isEmpty }.after
        [.given s (some word)])
  | none, word :: words =>
    if isDashed word then do
      let w ← readDashed? known word
      if (question? w.arguments).isSome then some ⟨w.arguments, false, []⟩
      else
        let next ← readLeading? known w.awaiting words
        some (next.after w.arguments)
    else some ⟨[], false, word :: words⟩

/-- All arguments.  `awaiting` is a switch whose value comes next. -/
def readAll? (known : List Switch) : Option Switch → List String → Option (List Argument)
  | none, [] => some []
  | some _, [] => none
  | some s, word :: words =>
    if isDashed word then none
    else do
      let arguments ← readAll? known none words
      some (.given s (some word) :: arguments)
  | none, word :: words =>
    if word = "--" then some (words.map .operand)
    else if isDashed word then do
      let w ← readDashed? known word
      if (question? w.arguments).isSome then some w.arguments
      else
        let arguments ← readAll? known w.awaiting words
        some (w.arguments ++ arguments)
    else do
      let arguments ← readAll? known none words
      some (.operand word :: arguments)

end ViewFilters.Cli
