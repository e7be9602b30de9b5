import ContentSearch.CommandLine.Command

/-!
# Reading a command line

The words are read from left to right, in one pass. Each command on the way is a *level* with its
own arguments; a word that names a command opens the next level, and the levels around it wait.

An option with a value stays *pending* after its own word: the next word is its value, unless that
word is an option itself. A pending argument is settled when the next one arrives or the level ends,
and only then is it checked: that it has a value, that it is not there twice, and that its value is
a good one. So of two faults it is the order of settling that decides which one is told.

A word that is no option and no operand ends the reading at once, whatever is pending.
-/

set_option autoImplicit false

namespace ContentSearch.CommandLine

/-- Why the reading of a command line ends without a task. -/
inductive Stop
  | fault (f : UsageFault)
  /-- The user wants help for a command. -/
  | help (c : Command)
  /-- The user wants to know the version of a command. -/
  | version (c : Command)
  deriving Repr, DecidableEq

structure Level where
  command : Command
  /-- The arguments that are settled, with their values; flags have an empty one. -/
  taken : List (Argument × String)
  /-- An argument that is not settled yet, with its value if that is there. -/
  pending : Option (Argument × Option String)
  /-- The operands that are still to come. -/
  operands : List Argument
  /-- Whether a bare `--` has been read, after which no word is an option. -/
  trailing : Bool
  deriving Repr

namespace Level

def enter (c : Command) : Level := ⟨c, [], none, c.operands, false⟩

def has (l : Level) (a : Argument) : Bool := (l.taken.lookup a).isSome

/-- Whether the next word may be the value of a pending option. -/
def isWaiting (l : Level) : Bool :=
  match l.pending with
  | some (_, none) => true
  | _ => false

/-- Takes an argument, of which there must be only one. -/
def take (l : Level) (a : Argument) (v : String) : Except Stop Level :=
  if l.has a then .error (.fault .conflict)
  else match a.fault? v with
    | some f => .error (.fault f)
    | none => .ok { l with taken := l.taken ++ [(a, v)] }

def settle (l : Level) : Except Stop Level :=
  match l.pending with
  | none => .ok l
  | some (_, none) => .error (.fault .missingValue)
  | some (a, some v) => { l with pending := none }.take a v

def flag (l : Level) (a : Argument) : Except Stop Level :=
  match l.settle with
  | .error e => .error e
  | .ok l =>
    if a = .help then .error (.help l.command)
    else if a = .version then .error (.version l.command)
    else l.take a ""

/-- An option whose value may be attached to it. -/
def option (l : Level) (a : Argument) (attached : Option String) : Except Stop Level :=
  match l.settle with
  | .error e => .error e
  | .ok l =>
    match attached with
    | some v => l.take a v
    | none => .ok { l with pending := some (a, none) }

/-- A word behind two dashes: the name of an option, and its value behind an equals sign. -/
def long (l : Level) (name : List Char) (value : Option (List Char)) : Except Stop Level :=
  match l.command.long? (String.ofList name) with
  | none => .error (.fault .unknownArgument)
  | some a =>
    if a.isFlag then
      if value.isSome then .error (.fault .surplusValue) else l.flag a
    else l.option a (value.map String.ofList)

/-- The value that follows a letter in its own word, if there is one. -/
def attached? : List Char → Option String
  | [] => none
  | '=' :: v => some (String.ofList v)
  | v => some (String.ofList v)

/-- A word behind one dash: flags, and at the end perhaps an option with its value. -/
def shorts (l : Level) : List Char → Except Stop Level
  | [] => .ok l
  | c :: r =>
    match l.command.short? c with
    | none => .error (.fault .unknownArgument)
    | some a =>
      if a.isFlag then
        match l.flag a with
        | .ok l => l.shorts r
        | .error e => .error e
      else l.option a (attached? r)

def operand (l : Level) (word : String) : Except Stop Level :=
  match l.operands with
  | a :: rest =>
    match l.settle with
    | .ok l => .ok { l with pending := some (a, some word), operands := rest }
    | .error e => .error e
  | [] =>
    .error (.fault (if !l.command.isGroup || (l.trailing && (l.command.child? word).isSome)
      then .unknownArgument else .unknownCommand))

/-- A word that is no option: a value that is waited for, or an operand. -/
def plain (l : Level) (word : String) : Except Stop Level :=
  match l.pending with
  | some (a, none) => .ok { l with pending := some (a, some word) }
  | _ => l.operand word

def word (l : Level) (word : String) : Except Stop Level :=
  if l.trailing then l.operand word
  else match word.toList with
    | ['-', '-'] => .ok { l with trailing := true }
    | '-' :: '-' :: r =>
      l.long (r.takeWhile (· ≠ '='))
        (match r.dropWhile (· ≠ '=') with
          | _ :: v => some v
          | [] => none)
    | '-' :: c :: r => l.shorts (c :: r)
    | _ => l.plain word

/-- The command that a word leads on to. A word that may be a value is one. -/
def next? (l : Level) (word : String) : Option Command :=
  if l.trailing || l.isWaiting then none else l.command.child? word

/-- The end of a level: what is pending is settled, and what must be there is there. `standIns`
are the values of options that are missing, and count as options. -/
def finish (l : Level) (standIns : List (Argument × String)) (leadsOn : Bool) :
    Except Stop Level :=
  match l.settle with
  | .error e => .error e
  | .ok l =>
    if l.command.isGroup && !leadsOn then
      .error (.fault (if l.taken.isEmpty && standIns.isEmpty then .nothingAsked
        else .missingCommand))
    else if l.has .quiet && l.has .verbose then .error (.fault .conflict)
    else if l.operands ≠ [] then .error (.fault .missingOperand)
    else .ok l

end Level

/-! ## All levels -/

/-- The command that the words behind `help` lead to. -/
def helpFor (c : Command) : List String → Stop
  | [] => .help c
  | w :: ws =>
    match c.child? w with
    | some child => helpFor child ws
    | none => .fault .unknownCommand

/-- Reads words at the innermost level; the others are around it, the nearest first. -/
def readWords (outer : List Level) (l : Level) : List String → Except Stop (Level × List Level)
  | [] => .ok (l, outer)
  | w :: ws =>
    match l.next? w with
    | some .help => .error (helpFor l.command ws)
    | some c => readWords (l :: outer) (.enter c) ws
    | none =>
      match l.word w with
      | .ok l => readWords outer l ws
      | .error e => .error e

/-- Ends the levels around the innermost one. -/
def finishAll (standIns : List (Argument × String)) : List Level → Except Stop (List Level)
  | [] => .ok []
  | l :: outer =>
    match l.finish standIns true with
    | .error e => .error e
    | .ok l =>
      match finishAll standIns outer with
      | .error e => .error e
      | .ok outer => .ok (l :: outer)

/-- The levels of a command line, the innermost first. -/
def readLevels (standIns : List (Argument × String)) (words : List String) :
    Except Stop (Level × List Level) :=
  match readWords [] (.enter .top) words with
  | .error e => .error e
  | .ok (l, outer) =>
    match l.finish standIns false with
    | .error e => .error e
    | .ok l =>
      match finishAll standIns outer with
      | .error e => .error e
      | .ok outer => .ok (l, outer)

/-! ## What is accepted -/

section
variable {standIns : List (Argument × String)} {l m : Level} {outer done : List Level}

/-- A level that is finished was settled, and nothing else was done to it. -/
theorem Level.settle_of_finish {leadsOn : Bool} (h : l.finish standIns leadsOn = .ok m) :
    l.settle = .ok m := by
  unfold finish at h
  split at h
  · cases h
  · rename_i hsettle
    -- of the four ways to go on from there, three are faults
    split at h
    · cases h
    · split at h
      · cases h
      · split at h
        · cases h
        · cases h
          exact hsettle

theorem finishAll_cons_eq_ok_iff :
    finishAll standIns (l :: outer) = .ok done ↔
      ∃ m rest, l.finish standIns true = .ok m ∧ finishAll standIns outer = .ok rest ∧
        done = m :: rest := by
  rw [finishAll]
  constructor
  · intro h
    split at h
    · cases h
    · rename_i m hm
      split at h
      · cases h
      · rename_i rest hrest
        cases h
        exact ⟨m, rest, hm, hrest, rfl⟩
  · rintro ⟨m, rest, hm, hrest, rfl⟩
    rw [hm, hrest]

/-- **A command line is accepted** if its words are read and every level that they come to can be
finished. -/
theorem readLevels_eq_ok_iff {words : List String} :
    readLevels standIns words = .ok (l, outer) ↔
      ∃ m mouter, readWords [] (.enter .top) words = .ok (m, mouter) ∧
        m.finish standIns false = .ok l ∧ finishAll standIns mouter = .ok outer := by
  rw [readLevels]
  constructor
  · intro h
    split at h
    · cases h
    · rename_i m mouter hread
      split at h
      · cases h
      · rename_i hfinish
        split at h
        · cases h
        · rename_i hrest
          cases h
          exact ⟨m, mouter, hread, hfinish, hrest⟩
  · rintro ⟨m, mouter, hread, hfinish, hrest⟩
    rw [hread]
    dsimp only
    rw [hfinish]
    dsimp only
    rw [hrest]

end

end ContentSearch.CommandLine
