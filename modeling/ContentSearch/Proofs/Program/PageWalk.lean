import ContentSearch.Program.Ending
import ContentSearch.Proofs.Cursor.Tiling
import ContentSearch.Proofs.Json.Pretty
import ContentSearch.Proofs.Program.NextPage

/-!
# Walking from page to page

Whoever walks through the results with `hs cursor next` never sees a cursor. What is handed on is a
text, the token that the last command printed, and each command reads it with a reader that does not
complain: a token that it cannot take would set the walk back to the first page, at any of its steps
and without a word.

A command is an `Advance` from one token to another if its command line, whatever options are among
its words, asks for the page behind the first token, and it ends well and prints the second. In any
surroundings there is one such command and all of them print the same token (**`advance_iff`**).
So a walk of any number of commands, each given what the one before it printed, comes to the token
of the cursor that as many steps lead to (**`walk_iff`**), and **`Cursor.walkLaw`** puts that
together with what these cursors are.

A command line is free but for what it asks for. Its options may be any and stand anywhere, some of
them in the environment; so this is not about one way to call the program.
-/

set_option autoImplicit false

namespace ContentSearch

/-! ## What is printed -/

/-- A process that ends well and prints a token: alone on a line or, in JSON, as the member that is
called the cursor. -/
structure Ending.Prints (json : Bool) (e : Ending) (token : String) : Prop where
  status : e.status = 0
  silent : e.errorOutput = ""
  line : json = false → e.output = token ++ "\n"
  member : json = true → ∃ members, Json.Document.parse? e.output = some (.object members) ∧
    members.filter (·.1 = some "cursor") = [(some "cursor", .scalar (.string (some token)))]

theorem Ending.Prints.token_unique {json : Bool} {e : Ending} {t u : String}
    (ht : e.Prints json t) (hu : e.Prints json u) : t = u := by
  -- alone on its line a token is all of the output, and in JSON it is the member of its name
  cases json with
  | false =>
    have hlines : t ++ "\n" = u ++ "\n" := (ht.line rfl).symm.trans (hu.line rfl)
    have hlist := congrArg String.toList hlines
    rw [String.toList_append, String.toList_append] at hlist
    exact String.toList_injective (List.append_cancel_right hlist)
  | true =>
    obtain ⟨members, hdocument, hmember⟩ := ht.member rfl
    obtain ⟨members', hdocument', hmember'⟩ := hu.member rfl
    rw [hdocument] at hdocument'
    cases hdocument'
    rw [hmember] at hmember'
    simpa using hmember'

theorem Report.prints_cursorToken (s : Style) (c : Cursor) :
    Ending.Prints s.json ⟨0, cursorToken s c, ""⟩ c.token := by
  refine ⟨rfl, rfl, fun hjson => ?_, fun hjson => ?_⟩
  · show s.answer _ _ = _
    rw [Style.answer, hjson]
    rfl
  · have houtput : cursorToken s c = pretty (cursorJson c) := by
      rw [cursorToken, Style.answer, if_pos hjson]
    have hdocument : Json.Document.parse? (cursorToken s c) = some (cursorJson c).document := by
      rw [houtput]
      exact Json.Document.parse?_renderPretty (cursorJson c)
    exact ⟨_, hdocument, rfl⟩

/-! ## One command -/

namespace Execution

/-- A command line that asks for the page behind that of a token ends with the token of that
page. -/
theorem prints_next {words : List String} {around : Surroundings} {i : Invocation} {u : String}
    (hwords : Invocation.ofWords around.environment words = .ok i)
    (htask : i.task = .advanceCursor u) :
    (ofWords words around).ending.Prints i.json (Cursor.decode (some u)).next.token := by
  have hending : (ofWords words around).ending
      = ⟨0, Report.cursorToken (Style.ofInvocation i around.environment)
          (Cursor.decode (some u)).next, ""⟩ := by
    rw [ofWords_eq hwords, Invocation.run, htask]
    rfl
  rw [hending]
  exact Report.prints_cursorToken (Style.ofInvocation i around.environment) _

end Execution

/-- The words that ask for the page behind that of a token, in one form of report or the other. -/
def Invocation.nextWords (json : Bool) (token : String) : List String :=
  ["cursor", "next"] ++ (if json then ["--json"] else []) ++ [token]

namespace CommandLine

/-- A word that does not start with a dash is no option. -/
theorem Level.word_of_no_dash {l : Level} (htrailing : l.trailing = false) {u : String}
    (hu : u.toList.head? ≠ some '-') : l.word u = l.plain u := by
  rw [Level.word, htrailing]
  cases h : u.toList with
  | nil => rfl
  | cons c r =>
    rw [h] at hu
    simp only [List.head?_cons, ne_eq, Option.some.injEq] at hu
    simp [hu]

/-- The level of the command, with the arguments that it has taken. -/
def nextLevel (taken : List (Argument × String)) : Level :=
  ⟨.cursorNext, taken, none, [.cursor], false⟩

theorem readWords_token (outer : List Level) (taken : List (Argument × String)) {u : String}
    (hu : u.toList.head? ≠ some '-') :
    readWords outer (nextLevel taken) [u]
      = .ok ({ nextLevel taken with pending := some (.cursor, some u), operands := [] },
          outer) := by
  have hnext : (nextLevel taken).next? u = none := rfl
  have hword : (nextLevel taken).word u
      = .ok { nextLevel taken with pending := some (.cursor, some u), operands := [] } := by
    rw [Level.word_of_no_dash rfl hu]
    rfl
  rw [readWords, hnext]
  dsimp only
  rw [hword]
  rfl

/-- What is read from the words of the command. -/
theorem readLevels_nextWords (standIns : List (Argument × String)) (json : Bool) {u : String}
    (hu : u.toList.head? ≠ some '-') :
    readLevels standIns (Invocation.nextWords json u)
      = .ok ({ nextLevel ((if json then [(.json, "")] else []) ++ [(.cursor, u)]) with
          operands := [] }, [.enter .cursor, .enter .top]) := by
  -- two commands are entered, and the option may stand in front of the token
  have hwords : readWords [] (.enter .top) (Invocation.nextWords json u)
      = readWords [.enter .cursor, .enter .top] (nextLevel (if json then [(.json, "")] else []))
          [u] := by
    cases json <;> rfl
  rw [readLevels, hwords, readWords_token _ _ hu]
  cases json <;> rfl

end CommandLine

/-- **The command can be given**, in any environment. -/
theorem Invocation.ofWords_nextWords (environment : Environment) (json : Bool) {u : String}
    (hu : u.toList.head? ≠ some '-') :
    ∃ i, ofWords environment (nextWords json u) = .ok i ∧ i.json = json ∧
      i.task = .advanceCursor u := by
  rw [ofWords, CommandLine.readLevels_nextWords _ json hu]
  cases json <;> exact ⟨_, rfl, rfl, rfl⟩

/-! ## Any number of commands -/

/-- No token is taken for an option. -/
theorem Cursor.head?_token_ne_dash (c : Cursor) : c.token.toList.head? ≠ some '-' := by
  intro h
  have hmem : '-' ∈ c.token.toList := List.mem_of_head? h
  rw [token, String.toList_ofList] at hmem
  exact Text.Base64.ne_of_mem_encode (by decide) (by decide) hmem rfl

namespace Execution

/-- **One command of a walk**: it is given the first token and prints the second. -/
def Advance (u v : String) : Prop :=
  ∃ (words : List String) (around : Surroundings) (i : Invocation),
    Invocation.ofWords around.environment words = .ok i ∧ i.task = .advanceCursor u ∧
      (ofWords words around).ending.Prints i.json v

/-- **A walk** from a token: each command is given what the one before it printed. -/
inductive Walk (t : String) : Nat → String → Prop
  | start : Walk t 0 t
  | step {n : Nat} {u v : String} (h : Walk t n u) (hstep : Advance u v) : Walk t (n + 1) v

/-- The command with the token of a cursor, in any surroundings and either form of report. -/
theorem prints_nextWords {c : Cursor} (h : c.Sound) (json : Bool) (around : Surroundings) :
    (ofWords (Invocation.nextWords json c.token) around).ending.Prints json c.next.token := by
  obtain ⟨i, hwords, rfl, htask⟩ :=
    Invocation.ofWords_nextWords around.environment json c.head?_token_ne_dash
  have hprints := prints_next hwords htask
  rwa [h.decode_token] at hprints

/-- **A command takes the token of a cursor to the token of the next one, and to no other.** -/
theorem advance_iff {c : Cursor} (h : c.Sound) (v : String) :
    Advance c.token v ↔ v = c.next.token := by
  -- The token is read back as its cursor, so every such command prints the one behind it; and there
  -- is such a command, for one thing in surroundings where there is nothing.
  constructor
  · rintro ⟨words, around, i, hwords, htask, hprints⟩
    have hnext := prints_next hwords htask
    rw [h.decode_token] at hnext
    exact hprints.token_unique hnext
  · rintro rfl
    let around : Surroundings := ⟨[], none, .empty, [], .nowhere, .usual⟩
    obtain ⟨i, hwords, hjson, htask⟩ :=
      Invocation.ofWords_nextWords around.environment false c.head?_token_ne_dash
    refine ⟨_, around, i, hwords, htask, ?_⟩
    rw [hjson]
    exact prints_nextWords h false around

/-- **A walk comes to the token of the cursor that as many steps lead to**, and to no other. -/
theorem walk_iff {c : Cursor} (h : c.Sound) (n : Nat) (t : String) :
    Walk c.token n t ↔ t = (Cursor.next^[n] c).token := by
  -- along the walk; the cursor that has been reached is sound, so its token is read back too
  induction n generalizing t with
  | zero =>
    constructor
    · rintro ⟨⟩
      rfl
    · rintro rfl
      exact .start
  | succ n ih =>
    have hsound : (Cursor.next^[n] c).Sound := Cursor.sound_next_iterate h n
    rw [Function.iterate_succ_apply']
    constructor
    · rintro (_ | ⟨hwalk, hstep⟩)
      rw [(ih _).mp hwalk] at hstep
      exact (advance_iff hsound t).mp hstep
    · rintro rfl
      exact .step ((ih _).mpr rfl) ((advance_iff hsound _).mpr rfl)

end Execution

/-! ## The law -/

namespace Cursor

/-- What a walk from a cursor is, as cursors, as tokens, as commands and as results. -/
structure WalkLaw (c : Cursor) : Prop where
  pages : ∀ n, next^[n] c = ⟨min (c.start + n * c.size) most, c.size⟩
  /-- The command for the page behind each page, in any surroundings and either form of report. -/
  command : ∀ n json around,
    (Execution.ofWords (Invocation.nextWords json (next^[n] c).token) around).ending.Prints json
      (next^[n + 1] c).token
  /-- Every walk of so many commands, whatever their words and surroundings are. -/
  walks : ∀ n t,
    Execution.Walk c.token n t ↔ t = token ⟨min (c.start + n * c.size) most, c.size⟩
  tiles : ∀ n, c.start + n * c.size ≤ most → c.Tiles n
  stays : ∀ m n, (next^[m] c).start = most → m ≤ n → next^[n] c = next^[m] c
  stops : ∃ n, (next^[n] c).start = most

/-- **Stepping through the pages tiles the results.** -/
theorem walkLaw {c : Cursor} (h : c.Sound) : c.WalkLaw := by
  have hpages (n : Nat) := next_iterate h.start_le_most n
  refine ⟨hpages, fun n json around => ?_, fun n t => ?_, fun n => tiles h.size_pos,
    fun m n => next_iterate_of_most, exists_next_iterate_most h⟩
  · rw [Function.iterate_succ_apply']
    exact Execution.prints_nextWords (sound_next_iterate h n) json around
  · rw [← hpages n]
    exact Execution.walk_iff h n t

/-- Three pages of three, the last of which starts one short of the greatest start, and the step
that stops there. -/
theorem walkLaw_sample :
    let c : Cursor := ⟨4294967288, 3⟩
    c.Sound ∧ c.Tiles 2 ∧ Execution.Walk c.token 3 (token ⟨4294967295, 3⟩) ∧
      next^[4] c = next^[3] c := by
  intro c
  have hsound : c.Sound := ⟨by decide, by decide, by decide, by decide⟩
  have hlaw : c.WalkLaw := walkLaw hsound
  refine ⟨hsound, hlaw.tiles 2 (by decide), (hlaw.walks 3 _).mpr rfl, ?_⟩
  exact hlaw.stays 3 4 (by rw [hlaw.pages]; decide) (by decide)

end Cursor
end ContentSearch
