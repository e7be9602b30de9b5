import ContentSearch.Proofs.Files
import ContentSearch.Proofs.Settings.Document
import ContentSearch.Proofs.Text.Utf8
import ContentSearch.Proofs.Toml.Range
import ContentSearch.Settings.File

/-!
# One change of a setting

A value is accepted for a key, or it is not (`SettingKey.accepted?`). What is accepted is what the
setting is afterwards, every other setting is what it was, and the file can be written and read
again, so the next change finds the same state of things (**`Kept.update_accepted`**). What is not
accepted leaves the settings as they were (**`Kept.update_refused`**).

Settings that were loaded always fit the file again, because a document holds no greater numbers
(`load_fits`); so it is the new value alone that can be too great for it. That is found out late,
when the directory of the file was made already. A directory may bring a file to light that could
not be reached before, if the path leads through it and back; a file that is there, or cannot come
to light so, is what `Kept` asks for.

Of a file `Kept` says three things: which settings it holds, that it can be written to, and that
making its directory brings nothing to light. Each of them has to outlast a change, accepted or
refused, because the next change starts from there.
-/

set_option autoImplicit false

namespace ContentSearch

open Text

/-! ## Settings by their keys -/

inductive SettingValue
  | text (s : String)
  | number (n : Nat)
  deriving Repr, DecidableEq

def Settings.get? (s : Settings) : SettingKey → Option SettingValue
  | .portal => s.portal.map .text
  | .token => s.token.map .text
  | .timeoutSecs => s.timeoutSecs.map .number
  | .maxRetries => s.maxRetries.map .number

/-- What a text stands for under a key, if it is accepted: a portal without the slashes at its end,
a token as it is, a number of 64 or 32 bits. A number must have a place in the file, whose integers
have a sign. -/
def SettingKey.accepted? : SettingKey → String → Option SettingValue
  | .portal, v => some (.text (String.ofList (dropTrailing '/' v.toList)))
  | .token, v => some (.text v)
  | .timeoutSecs, v =>
    match Decimal.read Decimal.limit64 v.toList with
    | .ok n => if n < Nat.pow 2 63 then some (.number n) else none
    | .error _ => none
  | .maxRetries, v =>
    match Decimal.read Decimal.limit32 v.toList with
    | .ok n => some (.number n)
    | .error _ => none

namespace Settings

/-! ## Loaded settings -/

theorem asNat?_eq_some {limit n : Nat} {v : Toml.Node} (h : asNat? limit v = some n) :
    v = .integer n ∧ n < limit := by
  unfold asNat? at h
  cases v with
  | integer i =>
    dsimp only [Toml.Node.asInteger?] at h
    split at h
    · rename_i hbounds
      obtain ⟨hlow, hhigh⟩ := hbounds
      rw [← Option.some.inj h]
      exact ⟨by rw [Int.toNat_of_nonneg hlow], by omega⟩
    · cases h
  | _ => cases h

theorem lt_of_asNat? {limit n : Nat} {v : Toml.Node} (hv : v.InRange)
    (h : asNat? limit v = some n) : n < Nat.pow 2 63 := by
  obtain ⟨rfl, -⟩ := asNat?_eq_some h
  cases hv with
  | integer hlt => exact Int.ofNat_lt.mp hlt

/-- A key that was read and is there, was read from its node. -/
theorem key?_eq_some {α : Type} {es : Entries Toml.Node} {name : String}
    {read : Toml.Node → Option α} {x : α} (h : key? es name read = some (some x)) :
    ∃ v, es.find? name = some v ∧ read v = some x := by
  unfold key? at h
  cases hfind : es.find? name with
  | none =>
    rw [hfind] at h
    cases h
  | some v =>
    rw [hfind] at h
    obtain ⟨y, hy, hxy⟩ := Option.map_eq_some_iff.mp h
    exact ⟨v, rfl, hy.trans hxy⟩

/-- Patience whose numbers have a place in a document. -/
structure Patience.Fits (p : Patience) : Prop where
  timeoutSecs : ∀ n, p.timeoutSecs = some n → n < Nat.pow 2 63
  maxRetries : ∀ n, p.maxRetries = some n → n < Decimal.limit32

theorem patience?_fits {v : Toml.Node} (hv : v.InRange) {p : Patience} (h : patience? v = some p) :
    p.Fits := by
  unfold patience? at h
  split at h
  · -- as a table, by the names of its keys
    rename_i origin es
    split at h
    · rename_i timeoutSecs maxRetries htimeout hretries
      rw [← Option.some.inj h]
      have hes : Toml.EntriesInRange es := by
        cases hv with
        | table hin => exact hin
      refine ⟨fun n hn => ?_, fun n hn => ?_⟩
      · obtain rfl : timeoutSecs = some n := hn
        obtain ⟨w, hw, hread⟩ := key?_eq_some htimeout
        exact lt_of_asNat? (hes.of_find? hw) hread
      · obtain rfl : maxRetries = some n := hn
        obtain ⟨w, hw, hread⟩ := key?_eq_some hretries
        exact (asNat?_eq_some hread).2
    · cases h
  · -- as an array, by position
    rename_i timeout retries rest
    split at h
    · rename_i timeoutSecs maxRetries htimeout hretries
      rw [← Option.some.inj h]
      have hitems : ∀ w ∈ timeout :: retries :: rest, w.InRange := by
        cases hv with
        | array hin => exact hin
      refine ⟨fun n hn => ?_, fun n hn => ?_⟩
      · rw [← Option.some.inj hn]
        exact lt_of_asNat? (hitems timeout (by simp)) htimeout
      · rw [← Option.some.inj hn]
        exact (asNat?_eq_some hretries).2
    · cases h
  · cases h

theorem ofEntries?_fits {es : Entries Toml.Node} (hes : Toml.EntriesInRange es) {v : Nat}
    {s : Settings} (h : ofEntries? es = some (v, s)) : s.Fits := by
  unfold ofEntries? at h
  obtain ⟨version, -, h⟩ := Option.bind_eq_some_iff.mp h
  obtain ⟨portal, -, h⟩ := Option.bind_eq_some_iff.mp h
  obtain ⟨token, -, h⟩ := Option.bind_eq_some_iff.mp h
  obtain ⟨client, hclient, h⟩ := Option.bind_eq_some_iff.mp h
  obtain ⟨-, rfl⟩ := Prod.mk.inj (Option.some.inj h)
  cases client with
  | none => exact ⟨nofun, nofun⟩
  | some p =>
    obtain ⟨node, hnode, hread⟩ := key?_eq_some hclient
    have hp := patience?_fits (hes.of_find? hnode) hread
    exact ⟨hp.timeoutSecs, hp.maxRetries⟩

theorem parse_fits {text : String} {s : Settings} (h : parse text = .ok s) : s.Fits := by
  unfold parse at h
  split at h
  · cases h
  · rename_i v t hparsed
    split at h
    · cases h
    · obtain rfl : t = s := Except.ok.inj h
      obtain ⟨es, hes, hentries⟩ := Option.bind_eq_some_iff.mp hparsed
      exact ofEntries?_fits (Toml.inRange_read? hes) hentries

/-- What it is for settings to be loaded: they are in the file, or there is none. -/
theorem load_eq_ok_iff {fs : Files} {path : String} {s : Settings} :
    load fs path = .ok s ↔ (fs.contains path = false ∧ s = unset) ∨
      (fs.contains path ∧ ∃ text, fs.readText path = .ok text ∧ parse text = .ok s) := by
  unfold load
  constructor
  · intro h
    split at h
    · rename_i hthere
      split at h
      · cases h
      · rename_i text htext
        split at h
        · rename_i t hparse
          obtain rfl : t = s := Except.ok.inj h
          exact .inr ⟨hthere, text, htext, hparse⟩
        · cases h
    · rename_i hmissing
      exact .inl ⟨Bool.eq_false_iff.mpr hmissing, (Except.ok.inj h).symm⟩
  · rintro (⟨hmissing, rfl⟩ | ⟨hthere, text, htext, hparse⟩)
    · rw [hmissing]
      rfl
    · rw [if_pos hthere, htext]
      dsimp only
      rw [hparse]

/-- **Loaded settings can be written again.** -/
theorem load_fits {fs : Files} {path : String} {s : Settings} (h : load fs path = .ok s) :
    s.Fits := by
  rcases load_eq_ok_iff.mp h with ⟨-, rfl⟩ | ⟨-, text, -, hparse⟩
  · exact ⟨nofun, nofun⟩
  · exact parse_fits hparse

theorem Fits.isWritable {s : Settings} (h : s.Fits) : s.isWritable := by
  unfold Settings.isWritable
  cases htimeout : s.timeoutSecs with
  | none => rfl
  | some n => exact decide_eq_true (h.timeoutSecs n htimeout)

/-- **What was written is loaded.** -/
theorem load_write {fs gs : Files} {path : String} {s : Settings} (hs : s.Fits)
    (h : fs.write path (Utf8.encode s.write) = .ok gs) : load gs path = .ok s := by
  obtain ⟨hread, hthere⟩ := Files.readBytes_write h
  have htext : gs.readText path = .ok (String.ofList s.write) := by
    rw [Files.readText, hread]
    dsimp only
    rw [Files.textOf, Utf8.read?_encode]
  exact load_eq_ok_iff.mpr (.inr ⟨hthere, _, htext, parse_write hs⟩)

/-- What was saved is loaded. -/
theorem load_save {fs gs : Files} {path : String} {s : Settings} (hs : s.Fits)
    (h : s.save fs path = (.ok (), gs)) : load gs path = .ok s := by
  unfold save at h
  split at h
  · cases (Prod.mk.inj h).1
  · split at h
    · cases (Prod.mk.inj h).1
    · rename_i text htext
      split at h
      · cases (Prod.mk.inj h).1
      · rename_i hwrite
        obtain ⟨-, rfl⟩ := Prod.mk.inj h
        rw [write?, if_pos hs.isWritable] at htext
        obtain rfl := Option.some.inj htext
        exact load_write hs hwrite

theorem update_eq_ok {fs gs : Files} {path key value : String}
    (h : update fs path key value = (.ok (), gs)) :
    ∃ s t, load fs path = .ok s ∧ s.change key value = .ok t ∧ t.save fs path = (.ok (), gs) := by
  unfold update at h
  split at h
  · cases (Prod.mk.inj h).1
  · rename_i s hload
    split at h
    · cases (Prod.mk.inj h).1
    · rename_i t hchange
      exact ⟨s, t, hload, hchange, h⟩

/-! ## Accepted values -/

/-- Settings that are others but for one key, under which they have this value. -/
def Puts (s : Settings) (k : SettingKey) (v : SettingValue) (t : Settings) : Prop :=
  ∀ k', t.get? k' = if k' = k then some v else s.get? k'

/-- **What is accepted is set**, and has its place in the file. -/
theorem set_accepted {s : Settings} (h : s.Fits) {k : SettingKey} {value : String}
    {v : SettingValue} (hv : k.accepted? value = some v) :
    ∃ t, s.set k value = .ok t ∧ t.Fits ∧ s.Puts k v t := by
  -- Texts are taken as they are, or cut; of the numbers, only the timeout can be too great for the
  -- file after it was read.
  cases k with
  | portal =>
    obtain rfl := Option.some.inj hv
    exact ⟨_, rfl, ⟨h.timeoutSecs, h.maxRetries⟩, fun k' => by cases k' <;> rfl⟩
  | token =>
    obtain rfl := Option.some.inj hv
    exact ⟨_, rfl, ⟨h.timeoutSecs, h.maxRetries⟩, fun k' => by cases k' <;> rfl⟩
  | timeoutSecs =>
    unfold SettingKey.accepted? at hv
    dsimp only at hv
    split at hv
    · rename_i n hread
      split at hv
      · rename_i hlt
        obtain rfl := Option.some.inj hv
        refine ⟨{ s with timeoutSecs := some n }, ?_, ⟨fun m hm => ?_, h.maxRetries⟩,
          fun k' => by cases k' <;> rfl⟩
        · rw [set, hread]
        · rw [← Option.some.inj hm]
          exact hlt
      · cases hv
    · cases hv
  | maxRetries =>
    unfold SettingKey.accepted? at hv
    dsimp only at hv
    split at hv
    · rename_i n hread
      obtain rfl := Option.some.inj hv
      refine ⟨{ s with maxRetries := some n }, ?_, ⟨h.timeoutSecs, fun m hm => ?_⟩,
        fun k' => by cases k' <;> rfl⟩
      · rw [set, hread]
      · rw [← Option.some.inj hm]
        exact Decimal.lt_of_read (by decide) hread
    · cases hv

/-- **What is not accepted is not set**, or has no place in the file. -/
theorem set_refused {s t : Settings} {k : SettingKey} {value : String}
    (hv : k.accepted? value = none) (h : s.set k value = .ok t) : t.isWritable = false := by
  -- only the two numbers can be refused, and only the timeout can be set to one that is too great
  cases k with
  | portal => cases hv
  | token => cases hv
  | timeoutSecs =>
    unfold SettingKey.accepted? at hv
    unfold set at h
    dsimp only at hv h
    split at hv
    · rename_i n hread
      rw [hread] at h
      obtain rfl := Except.ok.inj h
      split at hv
      · cases hv
      · rename_i hlarge
        exact decide_eq_false hlarge
    · rename_i f hread
      rw [hread] at h
      cases h
  | maxRetries =>
    unfold SettingKey.accepted? at hv
    unfold set at h
    dsimp only at hv h
    split at hv
    · cases hv
    · rename_i f hread
      rw [hread] at h
      cases h

/-! ## Changing the file -/

/-- The settings of the file at a path, which can be written to, and under which no file will come
to light by making its directory. -/
structure Kept (fs : Files) (path : String) (s : Settings) : Prop where
  load : Settings.load fs path = .ok s
  writable : fs.Writable path
  plain : ∀ gs, fs.makeParent path = .ok gs → gs.contains path → fs.contains path

namespace Kept

variable {fs gs : Files} {path : String} {s : Settings}

/-- Making the directory changes nothing about the settings. -/
theorem of_makeParent (h : Kept fs path s) (hmade : fs.makeParent path = .ok gs) :
    Kept gs path s := by
  have hextends := Files.makeParent_extends hmade
  refine ⟨load_eq_ok_iff.mpr ?_, h.writable.of_makeParent hmade, fun hs hagain hthere => ?_⟩
  · -- the file is missing still, since none may come to light, or it can be read still
    rcases load_eq_ok_iff.mp h.load with ⟨hmissing, rfl⟩ | ⟨hthere, text, htext, hparse⟩
    · refine .inl ⟨Bool.eq_false_iff.mpr fun hnow => ?_, rfl⟩
      rw [h.plain gs hmade hnow] at hmissing
      cases hmissing
    · exact .inr ⟨hextends.contains hthere, text, hextends.readText htext, hparse⟩
  · obtain rfl : gs = hs :=
      Except.ok.inj ((Files.makeParent_again hmade (.refl gs)).symm.trans hagain)
    exact hthere

/-- **An accepted value is what the setting is afterwards**, and the others are what they were. -/
theorem update_accepted (h : Kept fs path s) {key value : String} {k : SettingKey}
    {v : SettingValue} (hk : SettingKey.ofName? key = some k) (hv : k.accepted? value = some v) :
    ∃ gs t, update fs path key value = (.ok (), gs) ∧ Kept gs path t ∧ s.Puts k v t := by
  obtain ⟨t, hset, hfits, hputs⟩ := set_accepted (load_fits h.load) hv
  obtain ⟨fs₁, hmade, dir, name, hleads⟩ := h.writable
  -- where the directory was made the path leads somewhere, so the file is written
  have hwrite : fs₁.write path (Utf8.encode t.write)
      = .ok (fs₁.put (dir ++ [name]) (.file (Utf8.encode t.write))) :=
    Files.write_eq_ok_iff.mpr ⟨dir, name, hleads, rfl⟩
  have hchange : s.change key value = .ok t := by
    rw [change, hk]
    dsimp only
    rw [hset]
  have hsave : t.save fs path
      = (.ok (), fs₁.put (dir ++ [name]) (.file (Utf8.encode t.write))) := by
    rw [save, Files.makeParent_eq_ok_iff.mp hmade]
    dsimp only
    rw [write?, if_pos hfits.isWritable]
    dsimp only
    rw [hwrite]
  refine ⟨_, t, ?_, ⟨load_write hfits hwrite, .of_write hmade hwrite, fun _ _ _ => ?_⟩, hputs⟩
  · rw [update, h.load]
    dsimp only
    rw [hchange]
    exact hsave
  · exact (Files.readBytes_write hwrite).2

/-- **A value that is not accepted changes nothing**, and neither does one for a key that there is
none of. -/
theorem update_refused (h : Kept fs path s) {key value : String}
    (hrefused : ∀ k, SettingKey.ofName? key = some k → k.accepted? value = none) :
    ∃ e gs, update fs path key value = (.error e, gs) ∧ Kept gs path s := by
  have hupdate : ∀ {e}, s.change key value = .error e →
      update fs path key value = (.error e, fs) := by
    intro e he
    rw [update, h.load]
    dsimp only
    rw [he]
  -- A key that is unknown and a text that is no value are refused before anything is saved.
  cases hk : SettingKey.ofName? key with
  | none =>
    refine ⟨.unknownKey key, fs, hupdate ?_, h⟩
    rw [change, hk]
  | some k =>
    cases hset : s.set k value with
    | error f =>
      refine ⟨.badValue k f, fs, hupdate ?_, h⟩
      rw [change, hk]
      dsimp only
      rw [hset]
    | ok t =>
      -- the value is found to be too great only where the directory is there already
      obtain ⟨fs₁, hmade, -⟩ := h.writable
      have hlarge : t.isWritable = false := set_refused (hrefused k hk) hset
      refine ⟨.unwritable t, fs₁, ?_, h.of_makeParent hmade⟩
      have hchange : s.change key value = .ok t := by
        rw [change, hk]
        dsimp only
        rw [hset]
      rw [update, h.load]
      dsimp only
      rw [hchange]
      show t.save fs path = _
      rw [save, Files.makeParent_eq_ok_iff.mp hmade]
      dsimp only
      rw [write?, hlarge]
      rfl

end Kept
end Settings
end ContentSearch
