import ContentSearch.Proofs.Json.Pretty
import ContentSearch.Proofs.Program.SettingHistory

/-!
# What is shown of a token

Settings are shown with a mask in place of their token. A short token becomes as many stars; of a
long one the two ends are shown, and what lies between them is left out. So what a mask gives away
is the character at every position of either end (**`Settings.maskToken_eq_iff`**), and there is
something that it does not give away if there is a position beside these.

There is, but for one length: where a token is as long as both of its ends, they meet, and the whole
token is shown. Every other token that is not empty keeps a character to itself, and whoever sees
how `config show` ends, in either form of its report, learns just what the mask tells
(**`Execution.token_masking`**).

To see that a mask depends on a character it is enough to put another one in its place
(`Settings.altered`), one position at a time. The length of a token is another matter: the stars of
a short one count it, and the masks of all long ones have the same length. So what is said here is
said of tokens of one length.
-/

set_option autoImplicit false

namespace ContentSearch

/-! ## Masks -/

theorem Text.take_eq_take_iff {α : Type} {xs ys : List α} {n : Nat} :
    xs.take n = ys.take n ↔ ∀ p < n, xs[p]? = ys[p]? := by
  rw [List.ext_getElem?_iff]
  constructor
  · intro h p hp
    have heq := h p
    rwa [List.getElem?_take_of_lt hp, List.getElem?_take_of_lt hp] at heq
  · intro h p
    by_cases hp : p < n
    · rw [List.getElem?_take_of_lt hp, List.getElem?_take_of_lt hp, h p hp]
    · rw [List.getElem?_take_eq_none (Nat.not_lt.mp hp),
        List.getElem?_take_eq_none (Nat.not_lt.mp hp)]

theorem Text.drop_eq_drop_iff {α : Type} {xs ys : List α} {n : Nat} :
    xs.drop n = ys.drop n ↔ ∀ p, n ≤ p → xs[p]? = ys[p]? := by
  rw [List.ext_getElem?_iff]
  simp only [List.getElem?_drop]
  constructor
  · intro h p hp
    have heq := h (p - n)
    rwa [Nat.add_sub_cancel' hp] at heq
  · intro h p
    exact h (n + p) (Nat.le_add_right n p)

namespace Settings

/-- Whether the mask of a token shows the character at a position. -/
def ShownAt (token : String) (position : Nat) : Prop :=
  maskedLength ≤ token.toList.length ∧
    (position < shownLength ∨ token.toList.length ≤ position + shownLength)

instance (token : String) (position : Nat) : Decidable (ShownAt token position) :=
  inferInstanceAs (Decidable (_ ∧ _))

/-- The token with another character at a position. -/
def altered (token : String) (position : Nat) (c : Char) : String :=
  String.ofList (token.toList.set position c)

theorem toList_altered (token : String) (position : Nat) (c : Char) :
    (altered token position c).toList = token.toList.set position c :=
  String.toList_ofList

/-- **Two tokens of one length have one mask** exactly if they agree wherever it shows them. -/
theorem maskToken_eq_iff {s t : String} (hlength : t.toList.length = s.toList.length) :
    maskToken t = maskToken s ↔ ∀ p, ShownAt s p → t.toList[p]? = s.toList[p]? := by
  unfold maskToken
  dsimp only
  rw [String.ofList_inj, hlength]
  -- stars tell the length and nothing else
  by_cases hshort : s.toList.length < maskedLength
  · rw [if_pos hshort, if_pos hshort]
    exact iff_of_true rfl fun p hp => absurd hp.1 (Nat.not_le.mpr hshort)
  · rw [if_neg hshort, if_neg hshort]
    have hlong : maskedLength ≤ s.toList.length := Nat.not_lt.mp hshort
    -- both heads are of one length, so the dots of one mask meet those of the other, even where the
    -- tokens have dots of their own
    have htake : (t.toList.take shownLength).length = (s.toList.take shownLength).length := by
      rw [List.length_take, List.length_take, hlength]
    have hends : t.toList.take shownLength ++ ['.', '.', '.']
          ++ t.toList.drop (s.toList.length - shownLength)
        = s.toList.take shownLength ++ ['.', '.', '.']
          ++ s.toList.drop (s.toList.length - shownLength) ↔
        t.toList.take shownLength = s.toList.take shownLength ∧
          t.toList.drop (s.toList.length - shownLength)
            = s.toList.drop (s.toList.length - shownLength) := by
      constructor
      · intro h
        rw [List.append_assoc, List.append_assoc] at h
        obtain ⟨hhead, hrest⟩ := List.append_inj h htake
        exact ⟨hhead, List.append_cancel_left hrest⟩
      · rintro ⟨hhead, htail⟩
        rw [hhead, htail]
    rw [hends, Text.take_eq_take_iff, Text.drop_eq_drop_iff]
    constructor
    · rintro ⟨hhead, htail⟩ p ⟨-, hp | hp⟩
      · exact hhead p hp
      · exact htail p (by omega)
    · intro h
      exact ⟨fun p hp => h p ⟨hlong, .inl hp⟩, fun p hp => h p ⟨hlong, .inr (by omega)⟩⟩

/-- The mask does not depend on the character at a position exactly if it does not show it. -/
theorem mask_altered_iff {token : String} {position : Nat}
    (hinside : position < token.toList.length) :
    (∀ c, maskToken (altered token position c) = maskToken token) ↔ ¬ ShownAt token position := by
  have hlength (c : Char) : (altered token position c).toList.length = token.toList.length := by
    rw [toList_altered, List.length_set]
  constructor
  · -- whatever stands at a shown position, there is another character, and the mask would tell them
    -- apart
    intro h hshown
    have : Nontrivial Char := ⟨'*', '.', by decide⟩
    obtain ⟨c, hc⟩ := exists_ne token.toList[position]
    have heq := (maskToken_eq_iff (hlength c)).mp (h c) position hshown
    rw [toList_altered, List.getElem?_set_self hinside, List.getElem?_eq_getElem hinside] at heq
    exact hc (Option.some.inj heq)
  · intro hhidden c
    refine (maskToken_eq_iff (hlength c)).mpr fun p hp => ?_
    rw [toList_altered, List.getElem?_set_ne]
    rintro rfl
    exact hhidden hp

/-- **The two ends of a token leave something out,** unless it is as long as both. -/
theorem exists_not_shownAt_iff (token : String) :
    (∃ p < token.toList.length, ¬ ShownAt token p) ↔
      token ≠ "" ∧ token.toList.length ≠ maskedLength := by
  have hempty : token = "" ↔ token.toList.length = 0 := by
    rw [List.length_eq_zero_iff, String.toList_eq_nil_iff]
  rw [ne_eq, hempty]
  unfold ShownAt maskedLength shownLength
  constructor
  · rintro ⟨p, hp, hhidden⟩
    omega
  · -- the first position of a short token, or the first one behind the head of a long one
    rintro ⟨hsome, hlength⟩
    by_cases hshort : token.toList.length < 8
    · exact ⟨0, by omega, by omega⟩
    · exact ⟨4, by omega, by omega⟩

/-- A token is found only in a file that is there. -/
theorem contains_of_load {fs : Files} {path : String} {s : Settings}
    (h : load fs path = .ok s) (htoken : s.token ≠ none) : fs.contains path = true := by
  by_contra hmissing
  rw [load, if_neg hmissing] at h
  obtain rfl := Except.ok.inj h
  exact htoken rfl

end Settings

/-! ## Reports -/

namespace Report

variable {path : String} {there : Bool} {s : Settings} {token token' : String}

/-- The JSON report gives away the mask. -/
theorem mask_of_settingsJson
    (h : pretty (settingsJson path there { s with token := some token' })
      = pretty (settingsJson path there { s with token := some token })) :
    Settings.maskToken token' = Settings.maskToken token := by
  -- a report can be read back, and the mask is one of its members
  have hdocument := congrArg Json.Document.parse? h
  unfold pretty at hdocument
  rw [Json.Document.parse?_renderPretty, Json.Document.parse?_renderPretty] at hdocument
  simpa [settingsJson, Json.Value.document, Json.Value.memberDocuments, Json.Value.ofOption,
    clientJson] using hdocument

/-- So does the report for people. -/
theorem mask_of_settingsText {style : Style}
    (h : settingsText style path there { s with token := some token' }
      = settingsText style path there { s with token := some token }) :
    Settings.maskToken token' = Settings.maskToken token := by
  simpa [settingsText, line] using h

/-- **What a report of settings tells of their token** is the mask, if it tells anything. -/
theorem settings_eq_iff (style : Style) :
    settings style path there { s with token := some token' }
        = settings style path there { s with token := some token } ↔
      Settings.maskToken token' = Settings.maskToken token ∨
        style.json = false ∧ style.quiet = true := by
  constructor
  · intro h
    unfold settings Style.report at h
    -- of the three kinds of reports only the silent one shows no mask
    cases hjson : style.json with
    | true =>
      rw [hjson, if_pos rfl, if_pos rfl] at h
      exact .inl (mask_of_settingsJson h)
    | false =>
      cases hquiet : style.quiet with
      | true => exact .inr ⟨rfl, rfl⟩
      | false =>
        rw [hjson, hquiet] at h
        exact .inl (mask_of_settingsText h)
  · rintro (hmask | ⟨hjson, hquiet⟩)
    · have hmasks : (some token').map Settings.maskToken = (some token).map Settings.maskToken :=
        congrArg some hmask
      unfold settings settingsJson settingsText
      dsimp only
      rw [hmasks]
      -- the rest of the report does not look at the token
      rfl
    · have hsilent (json human : String) : style.report json human = "" := by
        rw [Style.report, hjson, hquiet]
        rfl
      rw [settings, settings, hsilent, hsilent]

end Report

/-! ## Runs -/

/-- Words that ask for the settings to be shown, where what the file holds is `s`. -/
structure Shows (words : List String) (i : Invocation) (path : String) (s : Settings)
    (around : Surroundings) : Prop where
  asked : Invocation.ofWords around.environment words = .ok i
  task : i.task = .showSettings
  place : Settings.path around.environment around.accountHome = .ok path
  found : Settings.load around.files path = .ok s

section
variable {words : List String} {i : Invocation} {path : String} {s : Settings}
  {around : Surroundings}

/-- The same words over other files. -/
theorem Shows.over (h : Shows words i path s around) {files : Files} {t : Settings}
    (hload : Settings.load files path = .ok t) :
    Shows words i path t { around with files := files } :=
  ⟨h.asked, h.task, h.place, hload⟩

theorem Shows.ending (h : Shows words i path s around) (htoken : s.token ≠ none) :
    (Execution.ofWords words around).ending
      = ⟨0, Report.settings (Style.ofInvocation i around.environment) path true s, ""⟩ := by
  rw [Execution.ofWords_eq h.asked, Invocation.run, h.task]
  dsimp only
  rw [Invocation.runShow, Surroundings.settingsPath_eq h.place]
  dsimp only
  rw [h.found, Settings.contains_of_load h.found htoken]
  rfl

/-- **Two files with tokens of their own** and else the same settings are shown alike exactly if the
masks of the tokens are alike, or nothing is shown at all. -/
theorem Shows.ending_eq_iff {token token' : String} {files : Files}
    (h : Shows words i path { s with token := some token } around)
    (hload : Settings.load files path = .ok { s with token := some token' }) :
    (Execution.ofWords words { around with files := files }).ending
        = (Execution.ofWords words around).ending ↔
      Settings.maskToken token' = Settings.maskToken token ∨ i.json = false ∧ i.quiet = true := by
  rw [(h.over hload).ending nofun, h.ending nofun, Ending.mk.injEq, Report.settings_eq_iff]
  exact ⟨fun heq => heq.2.1, fun heq => ⟨rfl, heq, rfl⟩⟩

end

/-- **A position of a token that nobody gets to see**: whatever character stands there, the mask is
the same, and so is all that comes of showing the settings, in either form of report. -/
structure Settings.Hidden (token : String) (position : Nat) : Prop where
  inside : position < token.toList.length
  mask : ∀ c, maskToken (altered token position c) = maskToken token
  shown : ∀ (c : Char) (words : List String) (i : Invocation) (path : String) (s : Settings)
    (around : Surroundings) (files : Files),
    Shows words i path { s with token := some token } around →
    Settings.load files path = .ok { s with token := some (altered token position c) } →
      (Execution.ofWords words { around with files := files }).ending
        = (Execution.ofWords words around).ending

theorem Settings.hidden_iff {token : String} {position : Nat} :
    Hidden token position ↔ position < token.toList.length ∧ ¬ ShownAt token position := by
  constructor
  · intro h
    exact ⟨h.inside, (mask_altered_iff h.inside).mp h.mask⟩
  · rintro ⟨hinside, hhidden⟩
    have hmask := (mask_altered_iff hinside).mpr hhidden
    refine ⟨hinside, hmask, ?_⟩
    intro c words i path s around files h hload
    exact (h.ending_eq_iff hload).mpr (.inl (hmask c))

/-- **What is shown of a token.** Some position of it is hidden exactly if it is neither empty nor
as long as both of the ends that are shown, and the hidden positions are those between the ends, or
all of them in a token that is too short to be shown. Wherever settings are shown, one token can be
told from another exactly if the mask of one can. -/
theorem Execution.token_masking (token : String) :
    ((∃ position, Settings.Hidden token position) ↔
        token ≠ "" ∧ token.toList.length ≠ Settings.maskedLength) ∧
      (∀ position, Settings.Hidden token position ↔
        position < token.toList.length ∧ ¬ Settings.ShownAt token position) ∧
      ∀ (token' : String) (words : List String) (i : Invocation) (path : String) (s : Settings)
        (around : Surroundings) (files : Files),
        Shows words i path { s with token := some token } around →
        Settings.load files path = .ok { s with token := some token' } →
          ((ofWords words { around with files := files }).ending = (ofWords words around).ending ↔
            Settings.maskToken token' = Settings.maskToken token ∨
              i.json = false ∧ i.quiet = true) := by
  refine ⟨?_, fun position => Settings.hidden_iff, ?_⟩
  · simp only [Settings.hidden_iff]
    exact Settings.exists_not_shownAt_iff token
  · intro token' words i path s around files h hload
    exact h.ending_eq_iff hload

/-- A token of nine characters has one to hide, and another one in its place changes nothing; a
change at its end can be seen. -/
theorem Execution.token_masking_sample :
    let around : String → Surroundings := fun text =>
      ⟨[("HS_CONFIG", "settings")], none,
        ⟨[(["settings"], .file (Text.Utf8.encode text.toList))]⟩, [], .nowhere, .usual⟩
    let a := around "token = \"abcdefghi\"\n"
    let words := ["config", "show", "--json"]
    Settings.Hidden "abcdefghi" 4 ∧
      (ofWords words (around "token = \"abcd*fghi\"\n")).ending = (ofWords words a).ending ∧
      (ofWords words (around "token = \"abcdefgh*\"\n")).ending ≠ (ofWords words a).ending := by
  intro around a words
  let i : Invocation := ⟨false, false, true, false, none, none, .showSettings⟩
  let holding : String → Settings := fun token => ⟨none, some token, none, none⟩
  have hload : ∀ {text token : String}, (around text).files.readText "settings" = .ok text →
      Toml.read? text = some [("token", .string token)] →
      Settings.load (around text).files "settings" = .ok (holding token) := by
    intro text token htext hread
    have hthere : (around text).files.contains "settings" = true := rfl
    rw [Settings.load, if_pos hthere, htext]
    dsimp only
    rw [Settings.parse, hread]
    rfl
  have hwords : Invocation.ofWords a.environment words = .ok i := by cbv
  have hhere : Settings.load a.files "settings" = .ok (holding "abcdefghi") :=
    hload (by cbv) (by cbv)
  have hinside : Settings.load (around "token = \"abcd*fghi\"\n").files "settings"
      = .ok (holding "abcd*fghi") := hload (by cbv) (by cbv)
  have hend : Settings.load (around "token = \"abcdefgh*\"\n").files "settings"
      = .ok (holding "abcdefgh*") := hload (by cbv) (by cbv)
  have h : Shows words i "settings" (holding "abcdefghi") a := ⟨hwords, rfl, by decide, hhere⟩
  obtain ⟨-, hpositions, htold⟩ := token_masking "abcdefghi"
  have hfour : Settings.Hidden "abcdefghi" 4 := (hpositions 4).mpr ⟨by decide, by decide⟩
  refine ⟨hfour, ?_, fun heq => ?_⟩
  · exact hfour.shown '*' words i "settings" Settings.unset a _ h hinside
  · rcases (htold "abcdefgh*" words i "settings" Settings.unset a _ h hend).mp heq with
      hmask | ⟨hjson, -⟩
    · exact absurd hmask (by decide)
    · cases hjson

/-- A token of eight characters is shown as a whole: no position of it can be altered unseen. -/
theorem Settings.eight_characters_shown :
    maskToken "abcdefgh" = "abcd...efgh" ∧
      ¬ ∃ position < "abcdefgh".toList.length, ∀ c,
          maskToken (altered "abcdefgh" position c) = maskToken "abcdefgh" := by
  refine ⟨by decide, ?_⟩
  rintro ⟨position, hinside, hmask⟩
  have hhidden := (mask_altered_iff hinside).mp hmask
  have hlength : "abcdefgh".toList.length = 8 := rfl
  unfold ShownAt maskedLength shownLength at hhidden
  omega

end ContentSearch
