import ContentSearch.Proofs.CommandLine.Spoken
import ContentSearch.Proofs.Program.Failure
import ContentSearch.Proofs.Query.Token

/-!
# Where a token goes

A token may come from the command line, from the environment or from the settings file. Two runs
that differ in nothing but such values, none of them empty, end with the same status and the same
report; the portal can tell them apart, and only by the last pair of the forms it is sent
(**`Execution.token_confined`**).

The argument follows the token on its way, and shows at each station that tokens which were swapped
are swapped still: from the environment through the command line, from the settings file through the
settings, and from both into the query that is compiled. A settings file is taken for what it says:
two documents are the same but for the token if they have the same nodes under all other names.

There is one station where a token can leave its way. A settings file may be no settings document,
because it is no document at all, or because another setting in it has a wrong type. Then the
library for documents says what is wrong with the *text*, the program prints that, and the text has
the token in it. Nothing is known of those words but that they are a function of the text; so the
error output is the same exactly if the library says the same of both texts (`SameComplaint`). A
library that quotes the damaged line does not (**`Execution.damaged_line_is_quoted`**).

What is compared at each station are outcomes: both runs fail in the same way, or both have a result
and the results are related (`Alike`). So a failure must not depend on the token at all, which is
why documents that cannot be read are kept apart from the others before anything is compared
(`Surroundings.damaged?`).
-/

set_option autoImplicit false

namespace ContentSearch

open Text

/-! ## Settings -/

/-- Both fail in the same way, or both succeed with values that are alike. -/
inductive Alike {ε α : Type} (R : α → α → Prop) : Except ε α → Except ε α → Prop
  | error (e : ε) : Alike R (.error e) (.error e)
  | ok {x y : α} (h : R x y) : Alike R (.ok x) (.ok y)

theorem Alike.refl {ε α : Type} {R : α → α → Prop} (h : ∀ x, R x x) (x : Except ε α) :
    Alike R x x := by
  cases x with
  | error e => exact .error e
  | ok x => exact .ok (h x)

namespace Settings

structure SameButToken (s t : Settings) : Prop where
  rest : { t with token := none } = { s with token := none }
  token : Swapped s.token t.token

theorem SameButToken.refl (s : Settings) : s.SameButToken s := ⟨rfl, .same _⟩

/-- Texts of settings that say the same but for the token. Texts that are no documents at all say
nothing, whatever stands in them. -/
inductive SameDocument : String → String → Prop
  | same (text : String) : SameDocument text text
  | unread {text text' : String} (hread : Toml.read? text = none)
      (hread' : Toml.read? text' = none) : SameDocument text text'
  | changed {text text' : String} {es es' : Entries Toml.Node} {s t : String}
      (hread : Toml.read? text = some es) (hread' : Toml.read? text' = some es')
      (hrest : ∀ name ≠ "token", es'.find? name = es.find? name)
      (htoken : es.find? "token" = some (.string s))
      (htoken' : es'.find? "token" = some (.string t)) (hs : s ≠ "") (ht : t ≠ "") :
      SameDocument text text'

theorem key?_congr {α : Type} {es es' : Entries Toml.Node} {name : String}
    (h : es'.find? name = es.find? name) (read : Toml.Node → Option α) :
    key? es' name read = key? es name read := by
  rw [key?, key?, h]

theorem ofEntries?_sameButToken {es es' : Entries Toml.Node} {s t : String}
    (hrest : ∀ name ≠ "token", es'.find? name = es.find? name)
    (htoken : es.find? "token" = some (.string s))
    (htoken' : es'.find? "token" = some (.string t)) :
    ofEntries? es'
        = (ofEntries? es).map (fun p => (p.1, { p.2 with token := some t })) ∧
      ∀ p, ofEntries? es = some p → p.2.token = some s := by
  have hkey : key? es "token" Toml.Node.asString? = some (some s) := by
    rw [key?, htoken]
    rfl
  have hkey' : key? es' "token" Toml.Node.asString? = some (some t) := by
    rw [key?, htoken']
    rfl
  unfold ofEntries?
  rw [hkey, hkey', key?_congr (hrest "version" (by decide)),
    key?_congr (hrest "portal" (by decide)), key?_congr (hrest "client" (by decide))]
  -- whatever the other keys have to say, they say it to both
  cases key? es "version" (asNat? Decimal.limit32) with
  | none => exact ⟨rfl, fun p hp => nomatch hp⟩
  | some version =>
    cases key? es "portal" Toml.Node.asString? with
    | none => exact ⟨rfl, fun p hp => nomatch hp⟩
    | some portal =>
      cases key? es "client" patience? with
      | none => exact ⟨rfl, fun p hp => nomatch hp⟩
      | some client =>
        refine ⟨rfl, fun p hp => ?_⟩
        rw [← Option.some.inj hp]

/-- Reading such texts comes to the same but for the token, or both are no settings documents. -/
theorem parse_alike {text text' : String} (h : SameDocument text text') :
    parse text = .error (.malformed text) ∧ parse text' = .error (.malformed text') ∨
      Alike SameButToken (parse text) (parse text') := by
  cases h with
  | same => exact .inr (.refl SameButToken.refl _)
  | unread hread hread' =>
    left
    rw [parse, parse, hread, hread']
    exact ⟨rfl, rfl⟩
  | changed hread hread' hrest htoken htoken' hs ht =>
    obtain ⟨hentries, hheld⟩ := ofEntries?_sameButToken hrest htoken htoken'
    rw [parse, parse, hread, hread', Option.bind_some, Option.bind_some, hentries]
    -- The version is the same in both, so both are refused for it or neither is.
    cases hparsed : ofEntries? _ with
    | none => exact .inl ⟨rfl, rfl⟩
    | some p =>
      obtain ⟨v, settings⟩ := p
      right
      have hsecret : settings.token = some _ := hheld _ hparsed
      dsimp only [Option.map_some]
      split
      · exact .error _
      · refine .ok ⟨rfl, ?_⟩
        rw [hsecret]
        exact .changed hs ht

/-- Files that hold the same settings but for the token, at one path. -/
structure SameFile (fs gs : Files) (path : String) : Prop where
  contains : gs.contains path = fs.contains path
  text : Alike SameDocument (fs.readText path) (gs.readText path)

theorem load_alike {fs gs : Files} {path : String} (h : SameFile fs gs path) :
    (∃ t t', load fs path = .error (.fault (.malformed t)) ∧
        load gs path = .error (.fault (.malformed t'))) ∨
      Alike SameButToken (load fs path) (load gs path) := by
  rw [load, load, h.contains]
  -- no file there means the settings that nobody has made, for both
  by_cases hthere : fs.contains path
  · rw [if_pos hthere, if_pos hthere]
    have htext := h.text
    generalize fs.readText path = x, gs.readText path = y at htext
    cases htext with
    | error f => exact .inr (.error _)
    | @ok text text' hdocument =>
      dsimp only
      rcases parse_alike hdocument with ⟨hparse, hparse'⟩ | hparsed
      · rw [hparse, hparse']
        exact .inl ⟨text, text', rfl, rfl⟩
      · right
        generalize parse text = x, parse text' = y at hparsed
        cases hparsed with
        | error f => exact .error _
        | ok hsettings => exact .ok hsettings
  · rw [if_neg hthere, if_neg hthere]
    exact .inr (.ok (.refl unset))

end Settings

/-! ## Runs -/

/-- What an invocation asks a query for, if it asks for one. -/
def Task.query? : Task → Option QueryArguments
  | .compile q => some q
  | .search q => some q
  | _ => none

structure Invocation.SameButToken (i j : Invocation) : Prop where
  rest : { j with token := none } = { i with token := none }
  token : Swapped i.token j.token

theorem Invocation.SameButToken.task_eq {i j : Invocation} (h : i.SameButToken j) :
    j.task = i.task := (congrArg Invocation.task h.rest :)

theorem Invocation.SameButToken.json_eq {i j : Invocation} (h : i.SameButToken j) :
    j.json = i.json := (congrArg Invocation.json h.rest :)

/-- Surroundings that are the same but for the token in the environment and the one in the settings
file. -/
structure Surroundings.SameButToken (a b : Surroundings) : Prop where
  environment : ∀ name ≠ "HS_TOKEN", b.environment.lookup name = a.environment.lookup name
  token : Swapped (a.environment.lookup "HS_TOKEN") (b.environment.lookup "HS_TOKEN")
  accountHome : b.accountHome = a.accountHome
  settings : ∀ path, Settings.path a.environment a.accountHome = .ok path →
    Settings.SameFile a.files b.files path
  input : b.input = a.input
  portal : b.portal = a.portal
  wording : b.wording = a.wording

/-- The text of the settings file, if it is no settings document. -/
def Surroundings.damaged? (around : Surroundings) : Option String :=
  match around.settings with
  | .error (.fault (.malformed text)) => some text
  | _ => none

/-- The library for documents says the same of both settings files, if they are damaged. -/
def Surroundings.SameComplaint (a b : Surroundings) : Prop :=
  ∀ t t', a.damaged? = some t → b.damaged? = some t' → a.wording.document t' = a.wording.document t

/-- Executions that nobody can tell apart but the portal, and that one by the tokens; and whoever
reads the error output, unless `silent`. -/
structure Execution.SameButToken (silent : Prop) (x y : Execution) : Prop where
  status : y.ending.status = x.ending.status
  output : y.ending.output = x.ending.output
  errorOutput : y.ending.errorOutput = x.ending.errorOutput ↔ silent
  sent : List.Forall₂ Sent.SameButToken x.sent y.sent
  portal : y.portal = x.portal

namespace Surroundings

variable {a b : Surroundings}

theorem SameButToken.path_eq (h : a.SameButToken b) :
    Settings.path b.environment b.accountHome = Settings.path a.environment a.accountHome := by
  unfold Settings.path
  rw [h.environment "HS_CONFIG" (by decide), h.environment "XDG_CONFIG_HOME" (by decide),
    h.environment "HOME" (by decide), h.accountHome]

/-- Both settings files are damaged, or both hold the same but for the token. -/
theorem SameButToken.settings_alike (h : a.SameButToken b) :
    (∃ t t', a.settings = .error (.fault (.malformed t)) ∧
        b.settings = .error (.fault (.malformed t'))) ∨
      Alike Settings.SameButToken a.settings b.settings := by
  unfold Surroundings.settings
  rw [h.path_eq]
  cases hpath : Settings.path a.environment a.accountHome with
  | error e => exact .inr (.error e)
  | ok path => exact Settings.load_alike (h.settings path hpath)

theorem damaged?_of_settings {t : String} (h : a.settings = .error (.fault (.malformed t))) :
    a.damaged? = some t := by
  rw [damaged?, h]

/-- There is nothing to say of files of which one can be read. -/
theorem sameComplaint_of_alike (h : Alike Settings.SameButToken a.settings b.settings) :
    a.SameComplaint b := by
  intro t t' ha hb
  unfold damaged? at ha hb
  generalize a.settings = x, b.settings = y at h ha hb
  cases h with
  | error e =>
    -- the same error has the same text in it
    rw [ha] at hb
    rw [Option.some.inj hb]
  | ok hsame => cases ha

end Surroundings

theorem QueryArguments.compiled_alike {a b : Surroundings} {i j : Invocation} {q : QueryArguments}
    (hsettings : Alike Settings.SameButToken a.settings b.settings) (hasked : i.SameButToken j)
    (hfilter : b.filterAt q.filter = a.filterAt q.filter) :
    Alike (fun x y => x.1.SameButToken y.1 ∧ x.2.SameButToken y.2)
      (q.compiled i a) (q.compiled j b) := by
  unfold compiled
  rw [hfilter]
  generalize a.settings = x, b.settings = y at hsettings
  cases hsettings with
  | error e => exact .error _
  | @ok s t hsame =>
    dsimp only
    cases a.filterAt q.filter with
    | error e => exact .error e
    | ok f =>
      refine .ok ⟨?_, hsame⟩
      have hportal : j.portal = i.portal := (congrArg Invocation.portal hasked.rest :)
      have hsecret : ∀ t : Option String, (t.map Credential.mk).map Credential.secret = t := by
        intro t
        cases t <;> rfl
      -- A credential and the text in it are one and the same: what was swapped is swapped as a
      -- text.
      refine Query.compile_sameButToken _ ?_ (congrArg Settings.portal hsame.rest :) ?_ ?_
      · rw [options, options, hportal]
      · show Swapped (Option.map _ (Option.map _ _)) (Option.map _ (Option.map _ _))
        rw [hsecret, hsecret]
        exact hasked.token
      · show Swapped (Option.map _ (Option.map _ _)) (Option.map _ (Option.map _ _))
        rw [hsecret, hsecret]
        exact hsame.token

/-- A run, as far as it can be compared with another one. -/
structure Run.SameButToken (x y : Run) : Prop where
  outcome : y.outcome = x.outcome
  sent : List.Forall₂ Sent.SameButToken x.sent y.sent
  portal : y.portal = x.portal

namespace Invocation

variable {a b : Surroundings} {i j : Invocation} {q : QueryArguments}

theorem runCompile_sameButToken (haround : a.SameButToken b)
    (hsettings : Alike Settings.SameButToken a.settings b.settings) (hasked : i.SameButToken j)
    (hfilter : b.filterAt q.filter = a.filterAt q.filter) (style : Style) :
    (i.runCompile q style a).SameButToken (j.runCompile q style b) := by
  have hcompiled := QueryArguments.compiled_alike hsettings hasked hfilter
  unfold runCompile
  generalize q.compiled i a = x, q.compiled j b = y at hcompiled
  refine ⟨?_, .nil, haround.portal⟩
  cases hcompiled with
  | error e => rfl
  | ok hsame => exact congrArg Except.ok (Report.query_sameButToken hsame.1 style)

theorem runSearch_sameButToken (haround : a.SameButToken b)
    (hsettings : Alike Settings.SameButToken a.settings b.settings) (hasked : i.SameButToken j)
    (hfilter : b.filterAt q.filter = a.filterAt q.filter) (style : Style) :
    (i.runSearch q style a).SameButToken (j.runSearch q style b) := by
  have hcompiled := QueryArguments.compiled_alike hsettings hasked hfilter
  unfold runSearch
  generalize q.compiled i a = x, q.compiled j b = y at hcompiled
  cases hcompiled with
  | error e => exact ⟨rfl, .nil, haround.portal⟩
  | @ok x y hsame =>
    obtain ⟨hquery, hsettings⟩ := hsame
    have hblind : ∀ s : Settings, s.client = Settings.client { s with token := none } :=
      fun _ => rfl
    have hclient : y.2.client = x.2.client := by rw [hblind, hblind x.2, hsettings.rest]
    have hsearch := Client.search_sameButToken x.2.client hquery a.portal
    dsimp only
    rw [hclient, haround.portal]
    exact ⟨by rw [hsearch.outcome, hsearch.lastMet?], hsearch.sent, hsearch.portal⟩

end Invocation

theorem Invocation.run_sameButToken {a b : Surroundings} {i j : Invocation} {q : QueryArguments}
    (haround : a.SameButToken b) (hsettings : Alike Settings.SameButToken a.settings b.settings)
    (hasked : i.SameButToken j) (htask : i.task.query? = some q)
    (hfilter : b.filterAt q.filter = a.filterAt q.filter) :
    (i.run a).SameButToken (j.run b) := by
  have hstyle : Style.ofInvocation j b.environment = Style.ofInvocation i a.environment := by
    have hblind : ∀ i : Invocation, ∀ e, Style.ofInvocation i e
        = Style.ofInvocation { i with token := none } e := fun _ _ => rfl
    rw [hblind, hblind i, hasked.rest]
    unfold Style.ofInvocation
    rw [haround.environment "NO_COLOR" (by decide)]
  unfold run
  rw [hasked.task_eq, hstyle]
  generalize i.task = task at htask
  cases task with
  | compile q' =>
    obtain rfl : q' = q := Option.some.inj htask
    exact runCompile_sameButToken haround hsettings hasked hfilter _
  | search q' =>
    obtain rfl : q' = q := Option.some.inj htask
    exact runSearch_sameButToken haround hsettings hasked hfilter _
  | _ => cases htask

/-! ## Command lines -/

namespace CommandLine

section
variable {s t : List (Argument × String)}

theorem Level.finish_congr (h : t.isEmpty = s.isEmpty) (l : Level) (leadsOn : Bool) :
    l.finish t leadsOn = l.finish s leadsOn := by
  unfold Level.finish
  rw [h]

theorem finishAll_congr (h : t.isEmpty = s.isEmpty) (levels : List Level) :
    finishAll t levels = finishAll s levels := by
  induction levels with
  | nil => rfl
  | cons l outer ih => rw [finishAll, finishAll, l.finish_congr h, ih]

/-- **Reading a command line** only asks whether anything stands in for an option. -/
theorem readLevels_congr (h : t.isEmpty = s.isEmpty) (words : List String) :
    readLevels t words = readLevels s words := by
  unfold readLevels
  simp only [Level.finish_congr h, finishAll_congr h]

theorem invocation?_sameButToken (hportal : t.lookup .portal = s.lookup .portal)
    (htoken : Swapped (s.lookup .token) (t.lookup .token)) (l : Level) (outer : List Level) :
    invocation? s l outer = none ∧ invocation? t l outer = none ∨
      ∃ i j, invocation? s l outer = some i ∧ invocation? t l outer = some j ∧
        i.SameButToken j := by
  unfold invocation?
  cases l.task? with
  | none => exact .inl ⟨rfl, rfl⟩
  | some task =>
    refine .inr ⟨_, _, rfl, rfl, ?_, ?_⟩
    · dsimp only
      rw [hportal]
    · exact (Swapped.same _).orElse htoken

end
end CommandLine

/-- **The same words, with another token in the environment,** ask for the same but for the token,
or stop in the same way. -/
theorem Invocation.ofWords_alike {e f : Environment}
    (hrest : ∀ name ≠ "HS_TOKEN", f.lookup name = e.lookup name)
    (htoken : Swapped (e.lookup "HS_TOKEN") (f.lookup "HS_TOKEN")) (words : List String) :
    Alike SameButToken (ofWords e words) (ofWords f words) := by
  have hlookup := CommandLine.lookup_standIns
  -- Reading the words asks of the environment whether it stands in for any option. An empty token
  -- would, just as any other, and a missing one is missing in both.
  have hempty : (CommandLine.standIns f).isEmpty = (CommandLine.standIns e).isEmpty := by
    rw [CommandLine.standIns_eq, CommandLine.standIns_eq, hrest "HS_PORTAL" (by decide)]
    generalize e.lookup "HS_TOKEN" = t, f.lookup "HS_TOKEN" = u at htoken
    cases htoken with
    | same => rfl
    | changed => cases e.lookup "HS_PORTAL" <;> rfl
  unfold ofWords
  dsimp only
  rw [CommandLine.readLevels_congr hempty]
  cases CommandLine.readLevels (CommandLine.standIns e) words with
  | error stop => exact .error stop
  | ok levels =>
    obtain ⟨l, outer⟩ := levels
    have hportal : (CommandLine.standIns f).lookup .portal
        = (CommandLine.standIns e).lookup .portal := by
      rw [(hlookup f).1, (hlookup e).1, hrest "HS_PORTAL" (by decide)]
    have hswapped : Swapped ((CommandLine.standIns e).lookup .token)
        ((CommandLine.standIns f).lookup .token) := by
      rw [(hlookup e).2, (hlookup f).2]
      exact htoken
    rcases CommandLine.invocation?_sameButToken hportal hswapped l outer with
      ⟨hs, ht⟩ | ⟨i, j, hi, hj, hsame⟩
    · dsimp only
      rw [hs, ht]
      exact .error _
    · dsimp only
      rw [hi, hj]
      exact .ok hsame

/-! ## The words for a damaged file -/

/-- A run over a damaged settings file ends with that, before anything else is looked at. -/
theorem Invocation.run_of_settings_error {i : Invocation} {around : Surroundings}
    {q : QueryArguments} (htask : i.task.query? = some q) {e : SettingsError}
    (hsettings : around.settings = .error e) :
    i.run around = .quietly around (.error (.settings e)) := by
  have hcompiled : q.compiled i around = .error (.settings e) := by
    rw [QueryArguments.compiled, hsettings]
  -- no other task asks for a query
  unfold run
  generalize i.task = task at htask
  cases task with
  | compile q' =>
    obtain rfl : q' = q := Option.some.inj htask
    dsimp only
    rw [runCompile, hcompiled]
  | search q' =>
    obtain rfl : q' = q := Option.some.inj htask
    dsimp only
    rw [runSearch, hcompiled]
  | _ => cases htask

theorem Report.failureJson_inj {code code' message message' : String}
    (h : failureJson code message = failureJson code' message') :
    code = code' ∧ message = message' := by
  simpa [failureJson] using h

/-- **Failures of one code are printed alike** exactly if they have the same message, whether as
JSON or for people. -/
theorem Ending.failureText_eq_iff {w : Wording} {json : Bool} {e e' : ProgramError}
    (hcode : e'.code = e.code) :
    failureText w json e' = failureText w json e ↔ e'.message w = e.message w := by
  -- As JSON the message can be read back from the text, since printing it loses nothing. For people
  -- the message stands between fixed words.
  constructor
  · intro h
    cases json with
    | true =>
      have hparsed := congrArg Json.Value.parse? h
      rw [(parse?_failureText w e').2, (parse?_failureText w e).2] at hparsed
      exact (Report.failureJson_inj (Option.some.inj hparsed)).2
    | false =>
      rw [failureText, failureText, if_neg Bool.false_ne_true, if_neg Bool.false_ne_true,
        String.append_left_inj, String.append_right_inj] at h
      exact h
  · intro h
    rw [failureText, failureText, hcode, h]

theorem ProgramError.message_malformed (w : Wording) (t : String) :
    message (.settings (.fault (.malformed t))) w
      = "configuration error: " ++ ("Failed to parse config: " ++ w.document t) := rfl

/-- What is printed of a damaged settings file is what the library says of it. -/
theorem Ending.failureText_malformed_eq_iff (w : Wording) (json : Bool) (t t' : String) :
    failureText w json (.settings (.fault (.malformed t')))
        = failureText w json (.settings (.fault (.malformed t)))
      ↔ w.document t' = w.document t := by
  have hcode : ProgramError.code (.settings (.fault (.malformed t')))
      = ProgramError.code (.settings (.fault (.malformed t))) := rfl
  rw [failureText_eq_iff hcode, ProgramError.message_malformed, ProgramError.message_malformed,
    String.append_right_inj, String.append_right_inj]

/-! ## The program -/

namespace Execution

variable {words words' : List String} {a b : Surroundings} {i j : Invocation} {q : QueryArguments}

/-- Two programs whose settings files can be read, or fail to be read for the same reason. -/
theorem sameButToken_of_alike (hwords : Invocation.ofWords a.environment words = .ok i)
    (hwords' : Invocation.ofWords b.environment words' = .ok j) (hasked : i.SameButToken j)
    (htask : i.task.query? = some q) (haround : a.SameButToken b)
    (hsettings : Alike Settings.SameButToken a.settings b.settings)
    (hfilter : b.filterAt q.filter = a.filterAt q.filter) :
    (ofWords words a).SameButToken (a.SameComplaint b) (ofWords words' b) := by
  have hrun := Invocation.run_sameButToken haround hsettings hasked htask hfilter
  have hending : Ending.ofOutcome b.wording j.json (j.run b).outcome
      = Ending.ofOutcome a.wording i.json (i.run a).outcome := by
    rw [hasked.json_eq, hrun.outcome, haround.wording]
  rw [ofWords_eq hwords, ofWords_eq hwords']
  refine ⟨congrArg Ending.status hending, congrArg Ending.output hending, ?_, hrun.sent,
    hrun.portal⟩
  exact iff_of_true (congrArg Ending.errorOutput hending)
    (Surroundings.sameComplaint_of_alike hsettings)

/-- Two programs whose settings files are both damaged. -/
theorem sameButToken_of_damaged (hwords : Invocation.ofWords a.environment words = .ok i)
    (hwords' : Invocation.ofWords b.environment words' = .ok j) (hasked : i.SameButToken j)
    (htask : i.task.query? = some q) (haround : a.SameButToken b) {t t' : String}
    (hsettings : a.settings = .error (.fault (.malformed t)))
    (hsettings' : b.settings = .error (.fault (.malformed t'))) :
    (ofWords words a).SameButToken (a.SameComplaint b) (ofWords words' b) := by
  have htask' : j.task.query? = some q := by rw [hasked.task_eq, htask]
  rw [ofWords_eq hwords, ofWords_eq hwords', Invocation.run_of_settings_error htask hsettings,
    Invocation.run_of_settings_error htask' hsettings', hasked.json_eq, haround.wording]
  refine ⟨rfl, rfl, ?_, .nil, haround.portal⟩
  refine (Ending.failureText_malformed_eq_iff a.wording i.json t t').trans ?_
  -- The texts that the library is asked about are those of the two files, and there are no others.
  constructor
  · intro hsame u u' hu hu'
    rw [Surroundings.damaged?_of_settings hsettings] at hu
    rw [Surroundings.damaged?_of_settings hsettings'] at hu'
    rw [← Option.some.inj hu, ← Option.some.inj hu', hsame]
  · intro hsame
    exact hsame t t' (Surroundings.damaged?_of_settings hsettings)
      (Surroundings.damaged?_of_settings hsettings')

end Execution

/-- **A token influences nothing but the parameter it is sent in, and what a library says of the
file it stands in.** Let two command lines ask for a compilation or a search, alike but for the
token, in surroundings that are alike but for the token of the environment and the token of the
settings file, with the same text for a filter; where a token differs, neither value is empty. Then
both programs print the same report, end with the same status and leave their files alone, and what
they send is the same up to the value of the last pair. Their error output is the same exactly if
the library for documents says the same of both settings files, or has nothing to say. Two such
command lines there are whenever the words are the same. -/
theorem Execution.token_confined {a b : Surroundings} (haround : a.SameButToken b) :
    (∀ (words words' : List String) (i j : Invocation) (q : QueryArguments),
      Invocation.ofWords a.environment words = .ok i →
      Invocation.ofWords b.environment words' = .ok j →
      i.SameButToken j → i.task.query? = some q →
      (∀ path, q.filter = some path → b.filterText path = a.filterText path) →
      (ofWords words a).SameButToken (a.SameComplaint b) (ofWords words' b) ∧
        (ofWords words a).files = a.files ∧ (ofWords words' b).files = b.files) ∧
      ∀ words : List String,
        Alike Invocation.SameButToken (Invocation.ofWords a.environment words)
          (Invocation.ofWords b.environment words) := by
  refine ⟨?_, fun words => Invocation.ofWords_alike haround.environment haround.token words⟩
  intro words words' i j q hwords hwords' hasked htask hfilter
  have hfilterAt : b.filterAt q.filter = a.filterAt q.filter := by
    unfold Surroundings.filterAt
    cases hpath : q.filter with
    | none => rfl
    | some path =>
      dsimp only
      rw [hfilter path hpath]
  -- neither a compilation nor a search changes a setting
  have hreads : ∀ key value, i.task ≠ .changeSetting key value := by
    intro key value hchange
    rw [hchange] at htask
    cases htask
  have hfiles : (ofWords words a).files = a.files := by
    rw [ofWords_eq hwords]
    exact Invocation.run_files hreads
  have hfiles' : (ofWords words' b).files = b.files := by
    rw [ofWords_eq hwords']
    exact Invocation.run_files (hasked.task_eq ▸ hreads)
  refine ⟨?_, hfiles, hfiles'⟩
  -- Either the files are read alike, or the library has the last word on both of them.
  rcases haround.settings_alike with ⟨t, t', hdamaged, hdamaged'⟩ | hsettings
  · exact sameButToken_of_damaged hwords hwords' hasked htask haround hdamaged hdamaged'
  · exact sameButToken_of_alike hwords hwords' hasked htask haround hsettings hfilterAt

/-- **What a program sends** is what its search sends. -/
theorem Execution.sent_of_search {words : List String} {around : Surroundings} {i : Invocation}
    (hwords : Invocation.ofWords around.environment words = .ok i) {q : QueryArguments}
    (htask : i.task = .search q) {query : Query} {settings : Settings}
    (hquery : q.compiled i around = .ok (query, settings)) :
    (ofWords words around).sent = (settings.client.search query around.portal).sent := by
  rw [ofWords_eq hwords, Invocation.run_search htask hquery]

/-- Two searches with tokens of their own, in two environments and over two files with others. -/
theorem Execution.token_confined_sample :
    let around : String → String → Surroundings := fun token text =>
      ⟨[("HS_CONFIG", "settings"), ("HS_TOKEN", token), ("HS_PORTAL", "http://portal.test")],
        none, ⟨[(["settings"], .file (Utf8.encode text.toList))]⟩, [],
        ⟨⟨"http".toList, some "portal.test".toList, none⟩, [.answer ⟨429, none, []⟩, .dropped]⟩,
        .usual⟩
    let a := around "one" "token = \"two\"\n"
    let b := around "three" "token = \"four\"\n"
    let words := ["search", "--token", "five"]
    let words' := ["search", "--token=six"]
    a.SameButToken b ∧ (ofWords words a).SameButToken (a.SameComplaint b) (ofWords words' b) ∧
      (ofWords words a).sent.length = 2 ∧
      Alike Invocation.SameButToken (Invocation.ofWords a.environment ["compile"])
        (Invocation.ofWords b.environment ["compile"]) := by
  intro around a b words words'
  have hread : Toml.read? "token = \"two\"\n" = some [("token", .string "two")] := by cbv
  have hread' : Toml.read? "token = \"four\"\n" = some [("token", .string "four")] := by cbv
  have hdocument : Settings.SameDocument "token = \"two\"\n" "token = \"four\"\n" := by
    refine .changed hread hread' (fun name hname => ?_) rfl rfl (by decide) (by decide)
    simp [Entries.find?, hname]
  have htext : a.files.readText "settings" = .ok "token = \"two\"\n" := by cbv
  have htext' : b.files.readText "settings" = .ok "token = \"four\"\n" := by cbv
  have hsame : a.SameButToken b := by
    refine ⟨fun name hname => ?_, .changed (by decide) (by decide), rfl, ?_, rfl, rfl, rfl⟩
    · simp [a, b, around, List.lookup_cons, beq_false_of_ne hname]
    · intro path hpath
      obtain rfl : "settings" = path := Except.ok.inj hpath
      refine ⟨by decide, ?_⟩
      rw [htext, htext']
      exact .ok hdocument
  let q : QueryArguments := ⟨none, none, none, none, none, none, none⟩
  let i : Invocation :=
    ⟨false, false, false, false, some "http://portal.test", some "five", .search q⟩
  let j : Invocation :=
    ⟨false, false, false, false, some "http://portal.test", some "six", .search q⟩
  have hwords : Invocation.ofWords a.environment words = .ok i := by cbv
  have hwords' : Invocation.ofWords b.environment words' = .ok j := by cbv
  have hasked : i.SameButToken j := ⟨rfl, .changed (by decide) (by decide)⟩
  obtain ⟨hruns, hparse⟩ := token_confined hsame
  have hrun := hruns words words' i j q hwords hwords' hasked rfl
    (fun path hpath => by cases hpath)
  let settings : Settings := ⟨none, some "two", none, none⟩
  let query := Query.compile .empty (q.options i) settings.service
  have hcompiled : q.compiled i a = .ok (query, settings) := by
    have hload : Settings.load a.files "settings" = .ok settings := by
      rw [Settings.load, if_pos (by decide), htext]
      dsimp only
      rw [Settings.parse, hread]
      rfl
    rw [QueryArguments.compiled, show a.settings = .ok settings from hload]
    rfl
  have hsent : (ofWords words a).sent = (settings.client.search query a.portal).sent :=
    sent_of_search hwords rfl hcompiled
  -- the answer with status 429 is repeated once, and there the connection ends
  have htwice : (settings.client.search query a.portal).sent.length = 2 := by decide +kernel
  refine ⟨hsame, hrun.1, ?_, hparse ["compile"]⟩
  rw [hsent, htwice]

/-- **A library that quotes the damaged line prints the token.** A settings file of one line has a
letter behind the token where there should be none; of that file and of another one with another
token the library shows the line, and the place in it. -/
theorem Execution.damaged_line_is_quoted :
    let quoting : Wording := { Wording.usual with
      document := fun text => "TOML parse error at line 1, column 18\n  |\n1 | "
        ++ String.ofList (text.toList.takeWhile (· ≠ '\n'))
        ++ "\n  |                  ^\nexpected newline, `#`\n" }
    let around : String → Surroundings := fun text =>
      ⟨[("HS_CONFIG", "config.toml")], none,
        ⟨[(["config.toml"], .file (Utf8.encode text.toList))]⟩, [], .nowhere, quoting⟩
    let a := around "token = \"s3cret\" x\n"
    let b := around "token = \"public\" x\n"
    a.SameButToken b ∧
      (ofWords ["compile"] a).ending.errorOutput
        = "Error: configuration error: Failed to parse config: TOML parse error at line 1, column 18"
          ++ "\n  |\n1 | token = \"s3cret\" x\n  |                  ^\nexpected newline, `#`\n\n" ∧
      (ofWords ["compile"] b).ending.errorOutput ≠ (ofWords ["compile"] a).ending.errorOutput := by
  intro quoting around a b
  have hdamaged : ∀ {text : String}, (around text).files.readText "config.toml" = .ok text →
      Toml.read? text = none → (around text).settings = .error (.fault (.malformed text)) := by
    intro text htext hread
    have hthere : (around text).files.contains "config.toml" = true := rfl
    show Settings.load (around text).files "config.toml" = _
    rw [Settings.load, if_pos hthere, htext]
    dsimp only
    rw [Settings.parse, hread]
    rfl
  have htext : a.files.readText "config.toml" = .ok "token = \"s3cret\" x\n" := by cbv
  have htext' : b.files.readText "config.toml" = .ok "token = \"public\" x\n" := by cbv
  have hread : Toml.read? "token = \"s3cret\" x\n" = none := by cbv
  have hread' : Toml.read? "token = \"public\" x\n" = none := by cbv
  have hsame : a.SameButToken b := by
    refine ⟨fun _ _ => rfl, .same _, rfl, ?_, rfl, rfl, rfl⟩
    intro path hpath
    obtain rfl : "config.toml" = path := Except.ok.inj hpath
    refine ⟨by decide, ?_⟩
    rw [htext, htext']
    exact .ok (.unread hread hread')
  let i : Invocation :=
    ⟨false, false, false, false, none, none, .compile ⟨none, none, none, none, none, none, none⟩⟩
  have hending : ∀ {text : String},
      (around text).settings = .error (.fault (.malformed text)) →
      (ofWords ["compile"] (around text)).ending.errorOutput
        = Ending.failureText quoting false (.settings (.fault (.malformed text))) := by
    intro text hsettings
    have hwords : Invocation.ofWords (around text).environment ["compile"] = .ok i := by cbv
    rw [ofWords_eq hwords, Invocation.run_of_settings_error rfl hsettings]
    rfl
  -- what is left to be shown is about two closed texts
  rw [hending (hdamaged htext hread), hending (hdamaged htext' hread')]
  exact ⟨hsame, by decide +kernel, by decide +kernel⟩

end ContentSearch
