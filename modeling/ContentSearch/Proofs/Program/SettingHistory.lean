import ContentSearch.Proofs.Program.Failure
import ContentSearch.Proofs.Settings.File

/-!
# Settings over a history of changes

Commands that change settings are run one after the other, each in what the one before it left
behind. A command succeeds exactly if its value is accepted for its key; then this setting has the
value and every other one is as it was. Else the settings are as they were (`SettingCommand.Law`).
So in the end each setting has the value of the last command that succeeded with it, or the one it
had at the beginning (**`SettingCommand.history_law`**).

The file must be one that can be written to, and its path must be such that nothing comes to light
under it by making its directory. A path through a directory and back is none, as long as the
directory is missing: a command that fails makes the directory, and now there are settings
(`SettingCommand.file_comes_to_light`).

One command keeps the law and leaves a place that is ready for the next one (`step`). Being ready is
more than having these settings: the file can still be written to, and nothing comes to light under
its path (`Ready`). What a whole history comes to is an induction over the commands (`steps`), and
the law of a command in its middle is that of the first command behind the ones before it.
-/

set_option autoImplicit false

namespace ContentSearch

namespace Surroundings

variable {around : Surroundings} {path : String}

theorem settingsPath_eq (h : Settings.path around.environment around.accountHome = .ok path) :
    around.settingsPath = .ok path := by
  rw [settingsPath, h]

theorem settings_eq (h : Settings.path around.environment around.accountHome = .ok path) :
    around.settings = Settings.load around.files path := by
  rw [settings, h]

end Surroundings

/-- A command line that asks for a change of a setting, in an environment. -/
structure SettingCommand (environment : Environment) where
  words : List String
  key : String
  value : String
  asks : ∃ i, Invocation.ofWords environment words = .ok i ∧ i.task = .changeSetting key value

namespace SettingCommand

variable {environment : Environment}

/-- The setting that the command changes and the value it gets, if both are accepted. -/
def accepted? (c : SettingCommand environment) : Option (SettingKey × SettingValue) :=
  (SettingKey.ofName? c.key).bind fun k => (k.accepted? c.value).map (k, ·)

def run (c : SettingCommand environment) (around : Surroundings) : Execution :=
  Execution.ofWords c.words around

/-- What the command leaves behind for the next one. -/
def after (c : SettingCommand environment) (around : Surroundings) : Surroundings :=
  { around with files := (c.run around).files, portal := (c.run around).portal }

def afterAll (cs : List (SettingCommand environment)) (around : Surroundings) : Surroundings :=
  cs.foldl (fun a c => c.after a) around

/-- What a command owes its user, where the settings were `s`. -/
structure Law (c : SettingCommand environment) (around : Surroundings) (s : Settings) : Prop where
  succeeds : (c.run around).ending.status = 0 ↔ c.accepted?.isSome
  refused : c.accepted? = none → (c.after around).settings = .ok s
  accepted : ∀ k v, c.accepted? = some (k, v) →
    ∃ t, (c.after around).settings = .ok t ∧ ∀ k', t.get? k' = if k' = k then some v else s.get? k'

theorem accepted?_eq_some {c : SettingCommand environment} {k : SettingKey} {v : SettingValue}
    (h : c.accepted? = some (k, v)) :
    SettingKey.ofName? c.key = some k ∧ k.accepted? c.value = some v := by
  obtain ⟨k', hk, hv⟩ := Option.bind_eq_some_iff.mp h
  obtain ⟨v', hv', heq⟩ := Option.map_eq_some_iff.mp hv
  obtain ⟨rfl, rfl⟩ := Prod.mk.inj heq
  exact ⟨hk, hv'⟩

theorem accepted?_eq_none {c : SettingCommand environment} (h : c.accepted? = none) (k : SettingKey)
    (hk : SettingKey.ofName? c.key = some k) : k.accepted? c.value = none := by
  rw [accepted?, hk, Option.bind_some] at h
  exact Option.map_eq_none_iff.mp h

section
variable {around : Surroundings} {path : String} {s : Settings}

/-- **A run of the command is a change of the file.** -/
theorem run_eq (c : SettingCommand environment) (henvironment : around.environment = environment)
    (hpath : Settings.path around.environment around.accountHome = .ok path)
    {result : Except SettingsError Unit} {files : Files}
    (hupdate : Settings.update around.files path c.key c.value = (result, files)) :
    ((c.run around).ending.status = 0 ↔ result = .ok ()) ∧ (c.run around).files = files := by
  subst henvironment
  obtain ⟨i, hwords, htask⟩ := c.asks
  have hrun := Invocation.run_changeSetting htask (Surroundings.settingsPath_eq hpath)
  rw [hupdate] at hrun
  rw [run, Execution.ofWords_eq hwords, hrun, Ending.status_ofOutcome_eq_zero_iff]
  refine ⟨?_, rfl⟩
  cases result with
  | ok _ => exact ⟨fun _ => rfl, fun _ => ⟨_, rfl⟩⟩
  | error e =>
    constructor
    · rintro ⟨_, hdone⟩
      cases hdone
    · intro hdone
      cases hdone

/-- Where a command can be given: in this environment, whose settings are kept under the path. -/
structure Ready (environment : Environment) (path : String) (around : Surroundings) (s : Settings) :
    Prop where
  environment_eq : around.environment = environment
  path_eq : Settings.path around.environment around.accountHome = .ok path
  kept : Settings.Kept around.files path s

theorem Ready.settings_eq (h : Ready environment path around s) : around.settings = .ok s := by
  rw [Surroundings.settings_eq h.path_eq, h.kept.load]

/-- Nothing but the files and the portal is another afterwards. -/
theorem Ready.after (h : Ready environment path around s) (c : SettingCommand environment)
    {t : Settings} (hkept : Settings.Kept (c.run around).files path t) :
    Ready environment path (c.after around) t :=
  ⟨h.environment_eq, h.path_eq, hkept⟩

/-- **One command** keeps the law, and leaves settings that the next one can change. -/
theorem step (c : SettingCommand environment) (h : Ready environment path around s) :
    c.Law around s ∧ ∃ t, Ready environment path (c.after around) t ∧
      ∀ k, t.get? k = (c.accepted?.toList.lookup k).or (s.get? k) := by
  -- A refused command leaves the file ready with the settings it had, an accepted one with those it
  -- makes.
  cases haccepted : c.accepted? with
  | none =>
    obtain ⟨e, files, hupdate, hstill⟩ := h.kept.update_refused (accepted?_eq_none haccepted)
    obtain ⟨hstatus, rfl⟩ := c.run_eq h.environment_eq h.path_eq hupdate
    have hready := h.after c hstill
    refine ⟨⟨?_, fun _ => hready.settings_eq, ?_⟩, s, hready, fun k => rfl⟩
    · rw [hstatus, haccepted]
      exact ⟨nofun, nofun⟩
    · intro k v hkv
      rw [haccepted] at hkv
      cases hkv
  | some kv =>
    obtain ⟨k, v⟩ := kv
    obtain ⟨hk, hv⟩ := accepted?_eq_some haccepted
    obtain ⟨files, t, hupdate, hnow, hputs⟩ := h.kept.update_accepted hk hv
    obtain ⟨hstatus, rfl⟩ := c.run_eq h.environment_eq h.path_eq hupdate
    have hready := h.after c hnow
    refine ⟨⟨?_, ?_, ?_⟩, t, hready, fun k' => ?_⟩
    · rw [hstatus, haccepted]
      exact ⟨fun _ => rfl, fun _ => rfl⟩
    · intro hnone
      rw [haccepted] at hnone
      cases hnone
    · intro k' v' hkv
      obtain ⟨rfl, rfl⟩ := Prod.mk.inj (Option.some.inj (haccepted.symm.trans hkv))
      exact ⟨t, hready.settings_eq, hputs⟩
    · rw [hputs k', Option.toList_some, List.lookup_cons, List.lookup_nil]
      by_cases heq : k' = k
      · rw [if_pos heq, heq, beq_self_eq_true]
        rfl
      · rw [if_neg heq, beq_false_of_ne heq]
        rfl

/-- What the last command gave to a key: the one in front counts only if no later one does. -/
theorem lookup_accepted_cons (c : SettingCommand environment)
    (r : List (SettingCommand environment)) (k : SettingKey) :
    ((c :: r).filterMap accepted?).reverse.lookup k
      = ((r.filterMap accepted?).reverse.lookup k).or (c.accepted?.toList.lookup k) := by
  rw [List.filterMap_cons]
  cases c.accepted? with
  | none => exact Option.or_none.symm
  | some kv =>
    rw [List.reverse_cons, List.lookup_append]
    rfl

/-- **All commands, one after the other:** the next one can be given, and each setting is what the
last command that was accepted for it made it. -/
theorem steps (cs : List (SettingCommand environment)) (h : Ready environment path around s) :
    ∃ t, Ready environment path (afterAll cs around) t ∧
      ∀ k, t.get? k = ((cs.filterMap accepted?).reverse.lookup k).or (s.get? k) := by
  -- along the history; what carries over from one command to the next is that the place is ready
  induction cs generalizing around s with
  | nil => exact ⟨s, h, fun k => rfl⟩
  | cons c r ih =>
    obtain ⟨-, t, ht, hfirst⟩ := c.step h
    obtain ⟨u, hu, hrest⟩ := ih ht
    refine ⟨u, hu, fun k => ?_⟩
    rw [hrest, hfirst, lookup_accepted_cons, Option.or_assoc]

end

/-- **Changing settings is all or nothing, over every history.** Start with settings that can be
loaded, from a file or for want of one, where a file can be written to the path and where making its
directory brings none to light. Then each command of the history finds settings, succeeds exactly if
it is accepted, and changes one of them or nothing; and at the end every setting has the value that
the last accepted command gave to it, or else the one from the beginning. -/
theorem history_law {around : Surroundings} {path : String} {s : Settings}
    (hpath : Settings.path around.environment around.accountHome = .ok path)
    (hload : around.settings = .ok s) (hwritable : around.files.Writable path)
    (hplain : ∀ fs, around.files.makeParent path = .ok fs → fs.contains path →
      around.files.contains path)
    (cs : List (SettingCommand around.environment)) :
    (∀ front c rest, cs = front ++ c :: rest →
      ∃ t, (afterAll front around).settings = .ok t ∧ c.Law (afterAll front around) t) ∧
      ∃ t, (afterAll cs around).settings = .ok t ∧
        ∀ k, t.get? k = ((cs.filterMap accepted?).reverse.lookup k).or (s.get? k) := by
  rw [Surroundings.settings_eq hpath] at hload
  have hready : Ready around.environment path around s :=
    ⟨rfl, hpath, hload, hwritable, hplain⟩
  refine ⟨fun front c rest _ => ?_, ?_⟩
  · -- the commands in front leave the place ready for this one
    obtain ⟨t, ht, -⟩ := steps front hready
    exact ⟨t, ht.settings_eq, (c.step ht).1⟩
  · obtain ⟨t, ht, hlast⟩ := steps cs hready
    exact ⟨t, ht.settings_eq, hlast⟩

/-- The least number that is read and has no place in a file. -/
theorem read_tooLong : Text.Decimal.read Text.Decimal.limit64 "9223372036854775808".toList
    = .ok (Nat.pow 2 63) := by decide

/-- Three commands in a directory that is not there yet, of which the second asks for a number that
has no place in the file. -/
theorem history_law_sample :
    let around : Surroundings := ⟨[("HS_CONFIG", "kept/settings")], none, .empty, [], .nowhere, .usual⟩
    ∃ c d e : SettingCommand around.environment,
      c.words = ["config", "set", "portal", "http://portal.test//"] ∧
      d.words = ["config", "set", "client.timeout_secs", "9223372036854775808"] ∧
      e.words = ["config", "set", "token", "a b"] ∧
      (c.run around).ending.status = 0 ∧
      (d.run (afterAll [c] around)).ending.status ≠ 0 ∧
      ∃ t, (afterAll [c, d, e] around).settings = .ok t ∧
        t.get? .portal = some (.text "http://portal.test") ∧ t.get? .token = some (.text "a b") ∧
        t.get? .timeoutSecs = none ∧ t.get? .maxRetries = none := by
  intro around
  let invoke : String → String → Invocation := fun key value =>
    ⟨false, false, false, false, none, none, .changeSetting key value⟩
  let c : SettingCommand around.environment :=
    ⟨["config", "set", "portal", "http://portal.test//"], "portal", "http://portal.test//",
      invoke _ _, by cbv, rfl⟩
  let d : SettingCommand around.environment :=
    ⟨["config", "set", "client.timeout_secs", "9223372036854775808"], "client.timeout_secs",
      "9223372036854775808", invoke _ _, by cbv, rfl⟩
  let e : SettingCommand around.environment :=
    ⟨["config", "set", "token", "a b"], "token", "a b", invoke _ _, by cbv, rfl⟩
  have hload : around.settings = .ok .unset := by
    show Settings.load .empty "kept/settings" = _
    rw [Settings.load, if_neg (by decide)]
  have hmade : Files.empty.makeParent "kept/settings" = .ok ⟨[(["kept"], .directory)]⟩ := by cbv
  have hwritable : around.files.Writable "kept/settings" :=
    ⟨_, hmade, ["kept"], "settings", by cbv, by cbv, by cbv, by decide, by decide⟩
  have hplain : ∀ fs, around.files.makeParent "kept/settings" = .ok fs →
      fs.contains "kept/settings" → around.files.contains "kept/settings" := by
    intro fs hfs hthere
    obtain rfl := Except.ok.inj (hmade.symm.trans hfs)
    exact absurd hthere (by decide)
  have hc : c.accepted? = some (.portal, .text "http://portal.test") := by cbv
  -- the number is read, but the file has no place for it
  have hd : d.accepted? = none := by
    have hkey : SettingKey.ofName? "client.timeout_secs" = some .timeoutSecs :=
      SettingKey.ofName?_name .timeoutSecs
    show (SettingKey.ofName? "client.timeout_secs").bind _ = none
    rw [hkey, Option.bind_some, SettingKey.accepted?, read_tooLong]
    rfl
  have he : e.accepted? = some (.token, .text "a b") := by cbv
  have hpath : Settings.path around.environment around.accountHome = .ok "kept/settings" := by
    decide
  obtain ⟨hlaws, t, ht, hlast⟩ := history_law hpath hload hwritable hplain [c, d, e]
  obtain ⟨t₁, -, hfirst⟩ := hlaws [] c [d, e] rfl
  obtain ⟨t₂, -, hsecond⟩ := hlaws [c] d [e] rfl
  have haccepted : [c, d, e].filterMap accepted?
      = [(.portal, .text "http://portal.test"), (.token, .text "a b")] := by
    simp only [List.filterMap_cons, List.filterMap_nil, hc, hd, he]
  rw [haccepted] at hlast
  refine ⟨c, d, e, rfl, rfl, rfl, hfirst.succeeds.mpr (by rw [hc]; rfl), fun hzero => ?_, t, ht,
    hlast _, hlast _, hlast _, hlast _⟩
  have hsome := hsecond.succeeds.mp hzero
  rw [hd] at hsome
  cases hsome

/-- A change that fails and brings settings to light, since its path leads through a directory that
was missing. -/
theorem file_comes_to_light :
    let around : Surroundings :=
      ⟨[("HS_CONFIG", "a/../f")], none,
        ⟨[(["f"], .file (Text.Utf8.encode "portal = \"x\"\n".toList))]⟩, [], .nowhere,
        .usual⟩
    ∃ c : SettingCommand around.environment,
      c.words = ["config", "set", "client.timeout_secs", "9223372036854775808"] ∧
      around.settings = .ok .unset ∧ around.files.Writable "a/../f" ∧
      (c.run around).ending.status ≠ 0 ∧
      (c.after around).settings = .ok ⟨some "x", none, none, none⟩ := by
  intro around
  let c : SettingCommand around.environment :=
    ⟨["config", "set", "client.timeout_secs", "9223372036854775808"], "client.timeout_secs",
      "9223372036854775808",
      ⟨false, false, false, false, none, none,
        .changeSetting "client.timeout_secs" "9223372036854775808"⟩, by cbv, rfl⟩
  let made : Files := around.files.put ["a"] .directory
  have hload : Settings.load around.files "a/../f" = .ok .unset := by
    rw [Settings.load, if_neg (by decide)]
  have hmade : around.files.makeParent "a/../f" = .ok made := by cbv
  have hwritable : around.files.Writable "a/../f" :=
    ⟨_, hmade, [], "f", by cbv, by cbv, by cbv, by decide, by decide⟩
  -- the number is read, and found too great where the directory is there already
  have hchange : Settings.unset.change "client.timeout_secs" "9223372036854775808"
      = .ok ⟨none, none, some (Nat.pow 2 63), none⟩ := by
    have hkey : SettingKey.ofName? "client.timeout_secs" = some .timeoutSecs :=
      SettingKey.ofName?_name .timeoutSecs
    rw [Settings.change, hkey]
    dsimp only
    rw [Settings.set, read_tooLong]
    rfl
  have hupdate : Settings.update around.files "a/../f" "client.timeout_secs" "9223372036854775808"
      = (.error (.unwritable ⟨none, none, some (Nat.pow 2 63), none⟩), made) := by
    rw [Settings.update, hload]
    dsimp only
    rw [hchange]
    dsimp only
    rw [Settings.save, Files.makeParent_eq_ok_iff.mp hmade]
    dsimp only
    rw [Settings.write?, if_neg (by decide)]
  have hpath : Settings.path around.environment around.accountHome = .ok "a/../f" := by decide
  obtain ⟨hstatus, hfiles⟩ := c.run_eq rfl hpath hupdate
  refine ⟨c, rfl, ?_, hwritable, fun hzero => ?_, ?_⟩
  · rw [Surroundings.settings_eq hpath, hload]
  · cases hstatus.mp hzero
  · have hpath' : Settings.path (c.after around).environment (c.after around).accountHome
        = .ok "a/../f" := hpath
    have hafter : (c.after around).files = made := hfiles
    have htext : made.readText "a/../f" = .ok "portal = \"x\"\n" := by cbv
    have hparse : Settings.parse "portal = \"x\"\n" = .ok ⟨some "x", none, none, none⟩ := by
      have hentries : Toml.read? "portal = \"x\"\n" = some [("portal", .string "x")] := by cbv
      rw [Settings.parse, hentries]
      rfl
    rw [Surroundings.settings_eq hpath', hafter]
    exact Settings.load_eq_ok_iff.mpr (.inr ⟨by decide, _, htext, hparse⟩)

end SettingCommand
end ContentSearch
