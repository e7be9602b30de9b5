import ContentSearch.Proofs.CommandLine.Unsaid
import ContentSearch.Proofs.Program.Precedence
import ContentSearch.Proofs.Program.SettingHistory

/-!
# Slashes behind a portal

A portal can be supplied by a word, by the environment, by the settings file, and by a command that
puts it there. The command takes the slashes at its end away, the client does the same when it makes
an address, and the other ways leave them alone. In the end they do not matter, in whatever number
and on whatever way they come: two searches that agree on everything else send the same requests and
end in the same way (**`Execution.trailing_slashes`**).

A portal of nothing but slashes is another matter. The command makes an empty text of it, which is
no portal, and the other ways do not.

That two searches are otherwise equal means that they are equal once the portal is erased: from the
words (`CommandLine.unsaid`), from the environment, and from what the settings file says. Each way
is followed to the point where all of them meet, the portal that is chosen for a query
(`Supplied.chosen`); it is the portal that was meant with some slashes behind it. From there the
slashes are gone before anything can depend on them (`Supplied.address`), and the queries are the
same request (`QueryArguments.compiled_sameRequest`).
-/

set_option autoImplicit false

namespace ContentSearch

open Text CommandLine

/-! ## Alike results -/

theorem Alike.cases {ε α : Type} {R : α → α → Prop} {x y : Except ε α} (h : Alike R x y) :
    (∃ e, x = .error e ∧ y = .error e) ∨ ∃ a b, x = .ok a ∧ y = .ok b ∧ R a b := by
  cases h with
  | error e => exact .inl ⟨e, rfl, rfl⟩
  | ok h => exact .inr ⟨_, _, rfl, rfl, h⟩

theorem Alike.of_map_eq {ε α β : Type} {f : α → β} {x y : Except ε α} (h : y.map f = x.map f) :
    Alike (fun a b => f b = f a) x y := by
  cases x with
  | error e =>
    cases y with
    | error e' =>
      obtain rfl := Except.error.inj h
      exact .error e'
    | ok b => cases h
  | ok a =>
    cases y with
    | error e' => cases h
    | ok b => exact .ok (Except.ok.inj h)

/-! ## The choice of a portal -/

theorem nonEmpty_of_ne_empty {t : String} (h : t ≠ "") : nonEmpty (some t) = some t :=
  if_pos (decide_eq_true h)

namespace Connection

variable {word environment : Option String}

theorem chosen_of_absent {setting : String}
    (habsent : nonEmpty (word.or environment) = none) (hsetting : setting ≠ "") :
    chosen word environment (some setting) = some setting := by
  show (nonEmpty (word.or environment)).or (nonEmpty (some setting)) = some setting
  rw [habsent, Option.none_or, nonEmpty_of_ne_empty hsetting]

theorem chosen_of_present {first : String}
    (hpresent : word.or environment = some first) (hfirst : first ≠ "") (setting : Option String) :
    chosen word environment setting = some first := by
  show (nonEmpty (word.or environment)).or (nonEmpty setting) = some first
  rw [hpresent, nonEmpty_of_ne_empty hfirst, Option.some_or]

end Connection

/-! ## Ways to supply a portal -/

/-- The text with slashes behind it. -/
def Text.slashed (p : String) (n : Nat) : String := String.ofList (p.toList ++ List.replicate n '/')

theorem Text.dropTrailing_slashed (p : String) (n : Nat) :
    dropTrailing '/' (slashed p n).toList = dropTrailing '/' p.toList := by
  rw [slashed, String.toList_ofList, dropTrailing_append_replicate]

def Settings.withoutPortal (s : Settings) : Settings := { s with portal := none }

def Invocation.withoutPortal (i : Invocation) : Invocation := { i with portal := none }

/-- **The ways to supply a portal** to words that run in the second surroundings, for a user who
began with the first. It is the portal that counts, since no source before it has one. The only
source of a portal supplies it in one of these ways. -/
inductive Supplied (portal : String) (words : List String) : Surroundings → Surroundings → Prop
  /-- By an option of the command line. -/
  | word {around : Surroundings} (hwords : spoken? "portal" words = some portal) :
      Supplied portal words around around
  | environment {around : Surroundings} (hwords : spoken? "portal" words = none)
      (henvironment : around.environment.lookup "HS_PORTAL" = some portal) :
      Supplied portal words around around
  /-- By the settings file, whoever has written it. -/
  | file {around : Surroundings} {s : Settings}
      (habsent : nonEmpty ((spoken? "portal" words).or (around.environment.lookup "HS_PORTAL"))
        = none)
      (hsettings : around.settings = .ok s) (hportal : s.portal = some portal) :
      Supplied portal words around around
  /-- By a command that was run before and has succeeded. -/
  | command {before : Surroundings} (c : SettingCommand before.environment)
      (hkey : c.key = "portal") (hvalue : c.value = portal)
      (hdone : (c.run before).ending.status = 0)
      (habsent : nonEmpty ((spoken? "portal" words).or (before.environment.lookup "HS_PORTAL"))
        = none) :
      Supplied portal words before (c.after before)

/-- Words and surroundings that are the same but for the portal. -/
structure SameButPortal (words words' : List String) (before before' : Surroundings) : Prop where
  words : unsaid "portal" words' = unsaid "portal" words
  environment : ∀ name ≠ "HS_PORTAL",
    before'.environment.lookup name = before.environment.lookup name
  settings : before'.settings.map Settings.withoutPortal
    = before.settings.map Settings.withoutPortal
  portal : before'.portal = before.portal
  wording : before'.wording = before.wording

namespace SettingCommand

variable {around : Surroundings}

/-- A command that succeeds has a file to change. -/
theorem path_of_done (c : SettingCommand around.environment)
    (hdone : (c.run around).ending.status = 0) :
    ∃ path, Settings.path around.environment around.accountHome = .ok path := by
  cases hpath : Settings.path around.environment around.accountHome with
  | ok path => exact ⟨path, rfl⟩
  | error e =>
    obtain ⟨i, hwords, htask⟩ := c.asks
    have hplace : around.settingsPath = .error (.settings e) := by
      rw [Surroundings.settingsPath, hpath]
    have hrun : i.run around = .quietly around (.error (.settings e)) := by
      unfold Invocation.run
      rw [htask]
      dsimp only
      rw [Invocation.runChange, hplace]
    rw [run, Execution.ofWords, hwords] at hdone
    dsimp only at hdone
    rw [hrun] at hdone
    exact absurd hdone (ProgramError.settings e).exitStatus_ne_zero

/-- **What a change of the portal leaves behind**: the same settings, with the portal that it was
given, but for the slashes at its end. -/
theorem settings_after (c : SettingCommand around.environment) (hkey : c.key = "portal")
    (hdone : (c.run around).ending.status = 0) :
    ∃ s, around.settings = .ok s ∧ (c.after around).settings
      = .ok { s with portal := some (String.ofList (dropTrailing '/' c.value.toList)) } := by
  obtain ⟨path, hpath⟩ := c.path_of_done hdone
  cases hupdate : Settings.update around.files path c.key c.value with
  | mk result files =>
    obtain ⟨hstatus, hfiles⟩ := c.run_eq rfl hpath hupdate
    -- success of the command is success of the change: loading, setting and saving
    obtain rfl := hstatus.mp hdone
    obtain ⟨s, t, hload, hchange, hsave⟩ := Settings.update_eq_ok hupdate
    have hset : s.change c.key c.value
        = .ok { s with portal := some (String.ofList (dropTrailing '/' c.value.toList)) } := by
      rw [hkey, Settings.change, show "portal" = SettingKey.portal.name from rfl,
        SettingKey.ofName?_name]
      rfl
    obtain rfl := Except.ok.inj (hchange.symm.trans hset)
    have hfits := Settings.load_fits hload
    have hpath' : Settings.path (c.after around).environment (c.after around).accountHome
        = .ok path := hpath
    have hfiles' : (c.after around).files = files := hfiles
    refine ⟨s, (Surroundings.settings_eq hpath).trans hload, ?_⟩
    rw [Surroundings.settings_eq hpath', hfiles']
    exact Settings.load_save ⟨hfits.timeoutSecs, hfits.maxRetries⟩ hsave

theorem portal_after (c : SettingCommand around.environment) :
    (c.after around).portal = around.portal := by
  obtain ⟨i, hwords, htask⟩ := c.asks
  show (Execution.ofWords c.words around).portal = around.portal
  rw [Execution.ofWords_eq hwords]
  unfold Invocation.run
  rw [htask]
  dsimp only
  unfold Invocation.runChange
  split <;> rfl

end SettingCommand

namespace Supplied

variable {portal : String} {words : List String} {before around : Surroundings}

theorem environment_eq (h : Supplied portal words before around) :
    around.environment = before.environment := by
  cases h <;> rfl

/-- On every way the other settings stay what they are. -/
theorem settings_eq (h : Supplied portal words before around) :
    around.settings.map Settings.withoutPortal = before.settings.map Settings.withoutPortal := by
  cases h with
  | word => rfl
  | environment => rfl
  | file => rfl
  | command c hkey _ hdone _ =>
    obtain ⟨s, hbefore, hafter⟩ := c.settings_after hkey hdone
    rw [hbefore, hafter]
    rfl

theorem portal_eq (h : Supplied portal words before around) : around.portal = before.portal := by
  cases h with
  | word => rfl
  | environment => rfl
  | file => rfl
  | command c => exact c.portal_after

theorem wording_eq (h : Supplied portal words before around) :
    around.wording = before.wording := by
  cases h <;> rfl

/-- **What is chosen** is the portal, but for slashes at its end. -/
theorem chosen (h : Supplied portal words before around)
    (hportal : dropTrailing '/' portal.toList ≠ []) {s : Settings}
    (hsettings : around.settings = .ok s) :
    ∃ endpoint, Connection.chosen (spoken? "portal" words)
        (around.environment.lookup "HS_PORTAL") s.portal = some endpoint ∧
      dropTrailing '/' endpoint.toList = dropTrailing '/' portal.toList := by
  have hfull : portal ≠ "" := by
    rintro rfl
    exact hportal rfl
  -- The two ways through the invocation leave the text as it is, and so does the file. The command
  -- cuts it, and then there is nothing more to cut.
  cases h with
  | word hwords =>
    have hpresent : (spoken? "portal" words).or (before.environment.lookup "HS_PORTAL")
        = some portal := by
      rw [hwords, Option.some_or]
    exact ⟨portal, Connection.chosen_of_present hpresent hfull s.portal, rfl⟩
  | environment hwords henvironment =>
    have hpresent : (spoken? "portal" words).or (before.environment.lookup "HS_PORTAL")
        = some portal := by
      rw [hwords, henvironment, Option.none_or]
    exact ⟨portal, Connection.chosen_of_present hpresent hfull s.portal, rfl⟩
  | file habsent hs hp =>
    obtain rfl := Except.ok.inj (hs.symm.trans hsettings)
    refine ⟨portal, ?_, rfl⟩
    rw [hp]
    exact Connection.chosen_of_absent habsent hfull
  | command c hkey hvalue hdone habsent =>
    obtain ⟨t, -, hafter⟩ := c.settings_after hkey hdone
    obtain rfl := Except.ok.inj (hafter.symm.trans hsettings)
    subst hvalue
    have hkept : String.ofList (dropTrailing '/' c.value.toList) ≠ "" :=
      fun hempty => hportal (String.ofList_eq_empty_iff.mp hempty)
    refine ⟨_, Connection.chosen_of_absent habsent hkept, ?_⟩
    rw [String.toList_ofList, dropTrailing_dropTrailing]

/-- **Where the requests go** does not depend on the slashes. -/
theorem address {p : String} (hp : ∃ c ∈ p.toList, c ≠ '/') {n : Nat}
    (h : Supplied (slashed p n) words before around) {s : Settings}
    (hsettings : around.settings = .ok s) :
    ∃ endpoint, Connection.chosen (spoken? "portal" words)
        (around.environment.lookup "HS_PORTAL") s.portal = some endpoint ∧
      Client.searchAddress endpoint = Client.searchAddress p := by
  obtain ⟨c, hc, hne⟩ := hp
  -- more than slashes: something is left when they are cut, so no way makes an empty text of it
  have hmore : dropTrailing '/' (slashed p n).toList ≠ [] := by
    rw [dropTrailing_slashed]
    exact dropTrailing_ne_nil hc hne
  obtain ⟨endpoint, hchosen, htrimmed⟩ := h.chosen hmore hsettings
  refine ⟨endpoint, hchosen, ?_⟩
  rw [Client.searchAddress, Client.searchAddress, htrimmed, dropTrailing_slashed]

end Supplied

/-! ## Searches -/

/-- Queries that are the same request, to the same address. -/
structure Query.SameRequest (q r : Query) : Prop where
  body : r.formBody = q.formBody
  address : ∃ e f, q.connection.endpoint = some e ∧ r.connection.endpoint = some f ∧
    Client.searchAddress f = Client.searchAddress e

theorem Client.search_congr (client : Client) {q r : Query} (h : q.SameRequest r)
    (portal : Portal) : client.search r portal = client.search q portal := by
  obtain ⟨e, f, hq, hr, haddress⟩ := h.address
  rw [search, search, hq, hr]
  dsimp only
  rw [haddress, searchAt, searchAt]
  simp only [requestOf, h.body]

section
variable {a b : Surroundings} {i j : Invocation} {q : QueryArguments}

/-- A portal has no part in what a query says, nor in how patient its client is. -/
theorem QueryArguments.compiled_withoutPortal (hasked : j.withoutPortal = i.withoutPortal)
    (hsettings : b.settings.map Settings.withoutPortal = a.settings.map Settings.withoutPortal)
    (hfilter : b.filterAt q.filter = a.filterAt q.filter) :
    Alike (fun x y => y.1.formBody = x.1.formBody ∧ y.2.client = x.2.client)
      (q.compiled i a) (q.compiled j b) := by
  unfold compiled
  rw [hfilter]
  have hsame := Alike.of_map_eq hsettings
  generalize a.settings = x, b.settings = y at hsame
  cases hsame with
  | error e => exact .error _
  | @ok s t hrest =>
    dsimp only
    cases a.filterAt q.filter with
    | error e => exact .error e
    | ok f =>
      -- The form is the same whatever the portal, by definition. So is the client.
      have hbody : ∀ (i : Invocation) (s : Settings),
          (Query.compile (q.applyTerms f) (q.options i) s.service).formBody
            = (Query.compile (q.applyTerms f) (q.options i.withoutPortal)
                s.withoutPortal.service).formBody := fun _ _ => rfl
      have hclient : ∀ s : Settings, s.client = s.withoutPortal.client := fun _ => rfl
      refine .ok ⟨?_, ?_⟩
      · show (Query.compile _ (q.options j) t.service).formBody
          = (Query.compile _ (q.options i) s.service).formBody
        rw [hbody, hbody i, hasked, hrest]
      · show t.client = s.client
        rw [hclient, hclient s, hrest]

/-- **Queries to one address** are the same request if they differ in nothing but the portal. -/
theorem QueryArguments.compiled_sameRequest {words words' : List String} {address : List Char}
    (hwords : Invocation.ofWords a.environment words = .ok i)
    (hwords' : Invocation.ofWords b.environment words' = .ok j)
    (hasked : j.withoutPortal = i.withoutPortal)
    (hsettings : b.settings.map Settings.withoutPortal = a.settings.map Settings.withoutPortal)
    (hfilter : b.filterAt q.filter = a.filterAt q.filter)
    (haddress : ∀ s, a.settings = .ok s → ∃ e, Connection.chosen (spoken? "portal" words)
      (a.environment.lookup "HS_PORTAL") s.portal = some e ∧ Client.searchAddress e = address)
    (haddress' : ∀ s, b.settings = .ok s → ∃ e, Connection.chosen (spoken? "portal" words')
      (b.environment.lookup "HS_PORTAL") s.portal = some e ∧ Client.searchAddress e = address) :
    Alike (fun x y => x.1.SameRequest y.1 ∧ y.2.client = x.2.client)
      (q.compiled i a) (q.compiled j b) := by
  -- They fail alike before there is a query, or each has the address of its own portal.
  rcases (compiled_withoutPortal hasked hsettings hfilter).cases with
    ⟨e, hx, hy⟩ | ⟨⟨query, s⟩, ⟨query', t⟩, hx, hy, hbody, hclient⟩
  · rw [hx, hy]
    exact .error e
  · obtain ⟨hendpoint, -⟩ := chosen_of_compiled hwords hx
    obtain ⟨hendpoint', -⟩ := chosen_of_compiled hwords' hy
    obtain ⟨e, hchosen, he⟩ := haddress s (compiled_eq_ok hx).1
    obtain ⟨f, hchosen', hf⟩ := haddress' t (compiled_eq_ok hy).1
    rw [hx, hy]
    exact .ok ⟨⟨hbody, e, f, hendpoint.trans hchosen, hendpoint'.trans hchosen',
      hf.trans he.symm⟩, hclient⟩

/-- Requests that are the same are sent to the same end. -/
theorem Invocation.run_congr (hasked : j.withoutPortal = i.withoutPortal)
    (htask : i.task = .search q)
    (henvironment : ∀ name ≠ "HS_PORTAL", b.environment.lookup name = a.environment.lookup name)
    (hportal : b.portal = a.portal)
    (hcompiled : Alike (fun x y => x.1.SameRequest y.1 ∧ y.2.client = x.2.client)
      (q.compiled i a) (q.compiled j b)) :
    (j.run b).outcome = (i.run a).outcome ∧ (j.run b).sent = (i.run a).sent ∧
      (j.run b).portal = (i.run a).portal := by
  have hsametask : j.task = i.task := (congrArg Invocation.task hasked :)
  have htask' := hsametask.trans htask
  have hstyle : Style.ofInvocation j b.environment = Style.ofInvocation i a.environment := by
    have hblind : ∀ (i : Invocation) e, Style.ofInvocation i e
        = Style.ofInvocation i.withoutPortal e := fun _ _ => rfl
    rw [hblind, hblind i, hasked]
    unfold Style.ofInvocation
    rw [henvironment "NO_COLOR" (by decide)]
  rcases hcompiled.cases with ⟨e, ha, hb⟩ | ⟨⟨query, s⟩, ⟨query', t⟩, ha, hb, hsame, hclient⟩
  · rw [run_search_error htask ha, run_search_error htask' hb]
    exact ⟨rfl, rfl, hportal⟩
  · dsimp only at hsame hclient
    rw [run_search htask ha, run_search htask' hb, hstyle, hclient, hportal,
      Client.search_congr _ hsame]
    exact ⟨rfl, rfl, rfl⟩

end

/-! ## The program -/

/-- **Slashes behind a portal do not matter.** Take a portal of more than slashes. Supply it with
some slashes behind it, on one way, and once more with others or none, on the same way or another.
Two searches that agree on everything else, the filter that they read among it, then end with the
same status and the same texts, have sent the same requests, and leave the same portal behind. -/
theorem Execution.trailing_slashes {p : String} (hp : ∃ c ∈ p.toList, c ≠ '/') {n m : Nat}
    {words words' : List String} {before before' around around' : Surroundings} {i i' : Invocation}
    {q : QueryArguments}
    (hsupplied : Supplied (slashed p n) words before around)
    (hsupplied' : Supplied (slashed p m) words' before' around')
    (hsame : SameButPortal words words' before before')
    (hwords : Invocation.ofWords around.environment words = .ok i)
    (hwords' : Invocation.ofWords around'.environment words' = .ok i')
    (hsearch : i.task = .search q)
    (hfilter : around'.filterAt q.filter = around.filterAt q.filter) :
    (ofWords words' around').ending = (ofWords words around).ending ∧
      (ofWords words' around').sent = (ofWords words around).sent ∧
      (ofWords words' around').portal = (ofWords words around).portal := by
  have henvironment : ∀ name ≠ "HS_PORTAL",
      around'.environment.lookup name = around.environment.lookup name := by
    rw [hsupplied.environment_eq, hsupplied'.environment_eq]
    exact hsame.environment
  -- Without the words for the portal both command lines are the same words, read in environments
  -- that agree on everything else; so they ask for the same.
  have hasked : i'.withoutPortal = i.withoutPortal := by
    have hrest := Invocation.ofWords_unsaid hwords rfl
    have hrest' := Invocation.ofWords_unsaid hwords' (henvironment "HS_TOKEN" (by decide)).symm
    rw [hsame.words] at hrest'
    have hequal := Except.ok.inj (hrest'.symm.trans hrest)
    exact (congrArg Invocation.withoutPortal hequal :)
  have hcompiled := QueryArguments.compiled_sameRequest hwords hwords' hasked
    (hsupplied'.settings_eq.trans (hsame.settings.trans hsupplied.settings_eq.symm)) hfilter
    (fun _ => hsupplied.address hp) (fun _ => hsupplied'.address hp)
  obtain ⟨houtcome, hsent, hleft⟩ := Invocation.run_congr hasked hsearch henvironment
    (hsupplied'.portal_eq.trans (hsame.portal.trans hsupplied.portal_eq.symm)) hcompiled
  have hjson : i'.json = i.json := (congrArg Invocation.json hasked :)
  have hwording : around'.wording = around.wording := by
    rw [hsupplied.wording_eq, hsupplied'.wording_eq, hsame.wording]
  rw [ofWords_eq hwords, ofWords_eq hwords', houtcome, hsent, hleft, hjson, hwording]
  exact ⟨rfl, rfl, rfl⟩

/-- A portal that a command has put into the settings file, with two slashes, one of the environment
without any, and one of a word with one slash. -/
theorem Execution.trailing_slashes_sample :
    let portal : Portal := ⟨⟨"http".toList, some "portal.test".toList, none⟩, [.dropped]⟩
    let before : Surroundings := ⟨[("HS_CONFIG", "kept/settings")], none, .empty, [], portal, .usual⟩
    let named : Surroundings :=
      ⟨[("HS_CONFIG", "kept/settings"), ("HS_PORTAL", "http://portal.test")], none, .empty, [],
        portal, .usual⟩
    ∃ c : SettingCommand before.environment,
      c.words = ["config", "set", "portal", "http://portal.test//"] ∧
      (ofWords ["search"] (c.after before)).sent.map (·.request.target) = ["/search"] ∧
      (ofWords ["search"] named).ending = (ofWords ["search"] (c.after before)).ending ∧
      (ofWords ["search"] named).sent = (ofWords ["search"] (c.after before)).sent ∧
      (ofWords ["search", "--portal", "http://portal.test/"] before).ending
        = (ofWords ["search"] (c.after before)).ending := by
  intro portal before named
  let c : SettingCommand before.environment :=
    ⟨["config", "set", "portal", "http://portal.test//"], "portal", "http://portal.test//",
      ⟨false, false, false, false, none, none,
        .changeSetting "portal" "http://portal.test//"⟩, by cbv, rfl⟩
  let q : QueryArguments := ⟨none, none, none, none, none, none, none⟩
  let asked : Option String → Invocation := fun p =>
    ⟨false, false, false, false, p, none, .search q⟩
  have hload : before.settings = .ok .unset := by
    show Settings.load .empty "kept/settings" = _
    rw [Settings.load, if_neg (by decide)]
  have hmade : Files.empty.makeParent "kept/settings" = .ok ⟨[(["kept"], .directory)]⟩ := by cbv
  -- the command runs in a place where it can save: the directory of the file can be made
  have hkept : Settings.Kept before.files "kept/settings" .unset := by
    refine ⟨hload, ⟨_, hmade, ["kept"], "settings", by cbv, by cbv, by cbv, by decide,
      by decide⟩, ?_⟩
    intro fs hfs hthere
    obtain rfl := Except.ok.inj (hmade.symm.trans hfs)
    exact absurd hthere (by decide)
  have hpath : Settings.path before.environment before.accountHome = .ok "kept/settings" := by
    decide
  have haccepted : c.accepted? = some (.portal, .text "http://portal.test") := by cbv
  have hdone : (c.run before).ending.status = 0 := by
    obtain ⟨hlaw, -⟩ := c.step ⟨rfl, hpath, hkept⟩
    exact hlaw.succeeds.mpr (by rw [haccepted]; rfl)
  have hstored : Supplied (slashed "http://portal.test" 2) ["search"] before (c.after before) :=
    .command c rfl (by decide) hdone (by decide)
  have hnamed : Supplied (slashed "http://portal.test" 0) ["search"] named named :=
    .environment (by decide) (by decide)
  have hspoken : Supplied (slashed "http://portal.test" 1)
      ["search", "--portal", "http://portal.test/"] before before := .word (by decide)
  have hunnamed : Invocation.ofWords before.environment ["search"] = .ok (asked none) := by cbv
  have hstored_words : Invocation.ofWords (c.after before).environment ["search"]
      = .ok (asked none) := hunnamed
  have hnamed_words : Invocation.ofWords named.environment ["search"]
      = .ok (asked (some "http://portal.test")) := by cbv
  have hspoken_words : Invocation.ofWords before.environment
      ["search", "--portal", "http://portal.test/"]
      = .ok (asked (some "http://portal.test/")) := by cbv
  have henvironment : ∀ name ≠ "HS_PORTAL",
      named.environment.lookup name = before.environment.lookup name := by
    intro name hname
    show List.lookup name [("HS_CONFIG", "kept/settings"), ("HS_PORTAL", "http://portal.test")]
      = List.lookup name [("HS_CONFIG", "kept/settings")]
    rw [List.lookup_cons, List.lookup_cons, List.lookup_cons, beq_false_of_ne hname]
  have hcharacter : ∃ c ∈ "http://portal.test".toList, c ≠ '/' := ⟨'h', by decide, by decide⟩
  have hload_named : named.settings = .ok .unset := by
    show Settings.load .empty "kept/settings" = _
    rw [Settings.load, if_neg (by decide)]
  have hsame : SameButPortal ["search"] ["search"] before named :=
    ⟨rfl, henvironment, by rw [hload, hload_named], rfl, rfl⟩
  have hsame' : SameButPortal ["search"] ["search", "--portal", "http://portal.test/"]
      before before := ⟨by decide, fun _ _ => rfl, rfl, rfl, rfl⟩
  have hunfiltered : ∀ around : Surroundings, around.filterAt q.filter = .ok .empty := fun _ => rfl
  have hfilter : named.filterAt q.filter = (c.after before).filterAt q.filter := by
    rw [hunfiltered, hunfiltered]
  have hfilter' : before.filterAt q.filter = (c.after before).filterAt q.filter := by
    rw [hunfiltered, hunfiltered]
  -- stored against the environment, and stored against a word
  obtain ⟨hending, hsent, -⟩ :=
    trailing_slashes hcharacter hstored hnamed hsame hstored_words hnamed_words rfl hfilter
  obtain ⟨hending', -, -⟩ :=
    trailing_slashes hcharacter hstored hspoken hsame' hstored_words hspoken_words rfl hfilter'
  have hquery : q.compiled (asked (some "http://portal.test")) named
      = .ok (Query.compile .empty (q.options (asked (some "http://portal.test")))
          Settings.unset.service, .unset) := by
    rw [QueryArguments.compiled, hload_named]
    rfl
  have htarget : (Settings.unset.client.search (Query.compile .empty
      (q.options (asked (some "http://portal.test"))) Settings.unset.service)
      portal).sent.map (·.request.target) = ["/search"] := by decide +kernel
  refine ⟨c, rfl, ?_, hending, hsent, hending'⟩
  rw [← hsent, sent_of_search hnamed_words rfl hquery]
  exact htarget

end ContentSearch
