import ContentSearch.Files
import Mathlib.Data.List.Basic

/-!
# What stands where, before and after

Two things are done to files: the directories on a way are made, and a file is written. The first
only ever adds directories, even if it ends half way (**`makeDirectories_extends`**), so whatever
could be read before is read still (`Extends.readBytes`); but a path that led nowhere may lead
somewhere afterwards, for a way through a directory and back is no way while that directory is
missing. The second changes what stands at one place, and what is read along the same path
afterwards is what was written (**`readBytes_write`**).

Both can be done over again, to the same effect. Where the directories were made there is nothing
left to make (`makeDirectories_again`), and whether a file can be written depends on what
directories there are and not on what the files hold (`Writable.of_write`).

All of it rests on one law: what stands at a place after a put is the new entry there, and what it
was elsewhere (`entry?_put`). The working directory and those around it are always there, so the law
has an exception for them, and every use of it has to show that its place is none of these.
-/

set_option autoImplicit false

namespace ContentSearch.Files

theorem entry?_fixed (fs : Files) {place : Place} (h : isFixed place) :
    fs.entry? place = some .directory := if_pos h

/-- What stands at a place after a put: the new entry there, and the old ones elsewhere. -/
theorem entry?_put (fs : Files) {place : Place} (e : FileEntry) (p : Place) :
    entry? (fs.put place e) p = if p = place ∧ ¬ isFixed p then some e else fs.entry? p := by
  unfold entry? put
  -- what is always there is not looked up
  by_cases hfixed : isFixed p
  · rw [if_pos hfixed, if_pos hfixed, if_neg fun h => h.2 hfixed]
  · rw [if_neg hfixed, if_neg hfixed]
    by_cases hp : p = place
    · rw [if_pos ⟨hp, hfixed⟩, hp]
      exact List.lookup_cons_self
    · have hbeq : (p == place) = false := beq_false_of_ne hp
      rw [if_neg fun h => hp h.1, List.lookup_cons, hbeq]
      dsimp only
      -- the old entry of the place is gone, and it was not looked for
      induction fs.entries with
      | nil => rfl
      | cons x r ih =>
        obtain ⟨q, e'⟩ := x
        by_cases hq : q = place
        · rw [List.filter_cons_of_neg (by simpa using hq), ih, List.lookup_cons, hq, hbeq]
        · rw [List.filter_cons_of_pos (by simpa using hq), List.lookup_cons, List.lookup_cons, ih]

/-! ## The same ways -/

/-- Every directory of the first is one of the second. -/
def Passes (fs gs : Files) : Prop :=
  ∀ place, fs.entry? place = some .directory → gs.entry? place = some .directory

theorem Passes.refl (fs : Files) : Passes fs fs := fun _ h => h

theorem Passes.walk {fs gs : Files} (h : Passes fs gs) {place p : Place} {names : List String}
    (hwalk : fs.walk place names = .ok p) : gs.walk place names = .ok p := by
  -- name by name: each place on the way is a directory of the first, so one of the second
  induction names generalizing place with
  | nil => exact hwalk
  | cons name r ih =>
    rw [Files.walk] at hwalk ⊢
    cases hentry : fs.entry? place with
    | none =>
      rw [hentry] at hwalk
      cases hwalk
    | some e =>
      cases e with
      | file bytes =>
        rw [hentry] at hwalk
        cases hwalk
      | directory =>
        rw [hentry] at hwalk
        rw [h place hentry]
        exact ih hwalk

theorem Passes.resolve {fs gs : Files} (h : Passes fs gs) {path : Path} {p : Place}
    (hresolve : fs.resolve path = .ok p) : gs.resolve path = .ok p := by
  unfold Files.resolve at hresolve ⊢
  split at hresolve
  · cases hresolve
  · rename_i hnames
    rw [if_neg hnames]
    exact h.walk hresolve

/-- What is found behind two names after another is found by following them in one go. -/
theorem walk_append {fs : Files} {place dir : Place} {names : List String} (more : List String)
    (h : fs.walk place names = .ok dir) : fs.walk place (names ++ more) = fs.walk dir more := by
  -- along the first names
  induction names generalizing place with
  | nil =>
    cases h
    rfl
  | cons name r ih =>
    rw [walk] at h
    rw [List.cons_append, walk]
    cases hentry : fs.entry? place with
    | none =>
      rw [hentry] at h
      cases h
    | some e =>
      cases e with
      | file bytes =>
        rw [hentry] at h
        cases h
      | directory =>
        rw [hentry] at h
        exact ih h

/-! ## More directories -/

/-- The second holds what the first holds, and beyond it nothing but directories. -/
structure Extends (fs gs : Files) : Prop where
  kept : ∀ place e, fs.entry? place = some e → gs.entry? place = some e
  added : ∀ place bytes, gs.entry? place = some (.file bytes) → fs.entry? place = some (.file bytes)

namespace Extends

variable {fs gs hs : Files}

theorem refl (fs : Files) : Extends fs fs := ⟨fun _ _ h => h, fun _ _ h => h⟩

theorem trans (h : Extends fs gs) (h' : Extends gs hs) : Extends fs hs :=
  ⟨fun place e hp => h'.kept place e (h.kept place e hp),
    fun place bytes hp => h.added place bytes (h'.added place bytes hp)⟩

theorem passes (h : Extends fs gs) : Passes fs gs := fun place hp => h.kept place _ hp

theorem contains (h : Extends fs gs) {path : String} (hthere : fs.contains path) :
    gs.contains path := by
  unfold Files.contains at hthere ⊢
  -- whatever the path led to, it leads there still
  cases hresolve : fs.resolve (.ofString path) with
  | error f =>
    rw [hresolve] at hthere
    cases hthere
  | ok place =>
    rw [hresolve] at hthere
    obtain ⟨e, he⟩ := Option.isSome_iff_exists.mp hthere
    rw [h.passes.resolve hresolve]
    dsimp only
    rw [h.kept place e he]
    rfl

/-- **What could be read is read still**, to the byte. -/
theorem readBytes (h : Extends fs gs) {path : String} {bytes : List UInt8}
    (hread : fs.readBytes path = .ok bytes) : gs.readBytes path = .ok bytes := by
  unfold Files.readBytes at hread ⊢
  cases hresolve : fs.resolve (.ofString path) with
  | error f =>
    rw [hresolve] at hread
    cases hread
  | ok place =>
    rw [hresolve] at hread
    rw [h.passes.resolve hresolve]
    dsimp only at hread ⊢
    cases hentry : fs.entry? place with
    | none =>
      rw [hentry] at hread
      cases hread
    | some e =>
      rw [hentry] at hread
      rw [h.kept place e hentry]
      exact hread

theorem readText (h : Extends fs gs) {path text : String}
    (hread : fs.readText path = .ok text) : gs.readText path = .ok text := by
  unfold Files.readText at hread ⊢
  cases hbytes : fs.readBytes path with
  | error f =>
    rw [hbytes] at hread
    cases hread
  | ok bytes =>
    rw [hbytes] at hread
    rw [h.readBytes hbytes]
    exact hread

end Extends

theorem put_directory_extends {fs : Files} {place : Place} (h : fs.entry? place = none) :
    Extends fs (fs.put place .directory) := by
  refine ⟨fun p e hp => ?_, fun p bytes hp => ?_⟩
  · -- whatever stood anywhere stood at another place, since at this one there was nothing
    have hne : p ≠ place := by
      rintro rfl
      rw [h] at hp
      cases hp
    rw [entry?_put, if_neg fun hat => hne hat.1]
    exact hp
  · rw [entry?_put] at hp
    split at hp
    · cases hp
    · exact hp

theorem entry?_put_directory (fs : Files) (place : Place) :
    entry? (fs.put place .directory) place = some .directory := by
  rw [entry?_put]
  split
  · rfl
  · rename_i hat
    exact entry?_fixed fs (by_contra fun hfixed => hat ⟨rfl, hfixed⟩)

/-! ## Making directories -/

/-- **One directory is there, and the others are made behind it.** -/
theorem makeDirectories_cons {fs gs : Files} {made : Bool} {place : Place} {name : String}
    {r : List String} (h : fs.makeDirectories made place (name :: r) = (.ok (), gs)) :
    ∃ fs' made', entry? fs' (move place name) = some .directory ∧
      fs'.makeDirectories made' (move place name) r = (.ok (), gs) := by
  rw [makeDirectories] at h
  cases hentry : fs.entry? (move place name) with
  | none =>
    rw [hentry] at h
    exact ⟨_, true, entry?_put_directory fs _, h⟩
  | some e =>
    cases e with
    | file bytes =>
      rw [hentry] at h
      cases (Prod.mk.inj h).1
    | directory =>
      rw [hentry] at h
      exact ⟨fs, made, hentry, h⟩

/-- **Making directories only adds directories**, however far it comes. -/
theorem makeDirectories_extends (fs : Files) (made : Bool) (place : Place) (names : List String) :
    Extends fs (fs.makeDirectories made place names).2 := by
  -- along the names; a file in the way ends it, with the directories made so far
  induction names generalizing fs made place with
  | nil => exact .refl fs
  | cons name r ih =>
    rw [makeDirectories]
    cases hentry : fs.entry? (move place name) with
    | none => exact (put_directory_extends hentry).trans (ih _ _ _)
    | some e =>
      cases e with
      | file bytes => exact .refl fs
      | directory => exact ih _ _ _

/-- **There is nothing left to make** where the directories were made, even if other things changed
since. -/
theorem makeDirectories_again {fs gs hs : Files} {made made' : Bool} {place : Place}
    {names : List String} (h : fs.makeDirectories made place names = (.ok (), gs))
    (hpasses : Passes gs hs) : hs.makeDirectories made' place names = (.ok (), hs) := by
  -- Along the names: what was found or made on the way is kept to the end, and the ways of that end
  -- are ways still.
  induction names generalizing fs made place with
  | nil => rfl
  | cons name r ih =>
    obtain ⟨fs', made₁, hthere, hrest⟩ := makeDirectories_cons h
    have hlast : Extends fs' gs := by
      have hextends := makeDirectories_extends fs' made₁ (move place name) r
      rwa [hrest] at hextends
    have hmade : hs.entry? (move place name) = some .directory :=
      hpasses _ (hlast.kept _ _ hthere)
    rw [makeDirectories, hmade]
    exact ih hrest

theorem makeWay_extends (fs : Files) (path : String) : Extends fs (fs.makeWay path).2 := by
  unfold makeWay
  split
  · exact .refl fs
  · exact makeDirectories_extends fs false _ _

theorem makeParent_eq_ok_iff {fs gs : Files} {path : String} :
    fs.makeParent path = .ok gs ↔ fs.makeWay path = (.ok (), gs) := by
  unfold makeParent
  obtain ⟨result, gs'⟩ := fs.makeWay path
  cases result with
  | error f => simp
  | ok _ => simp

theorem makeParent_extends {fs gs : Files} {path : String} (h : fs.makeParent path = .ok gs) :
    Extends fs gs := by
  have hextends := makeWay_extends fs path
  rwa [makeParent_eq_ok_iff.mp h] at hextends

theorem makeParent_again {fs gs hs : Files} {path : String} (h : fs.makeParent path = .ok gs)
    (hpasses : Passes gs hs) : hs.makeParent path = .ok hs := by
  rw [makeParent_eq_ok_iff] at h ⊢
  unfold makeWay at h ⊢
  split at h
  · rfl
  · exact makeDirectories_again h hpasses

/-! ## Writing a file -/

/-- The path leads to a place that a file can have. -/
structure Leads (fs : Files) (path : String) (dir : Place) (name : String) : Prop where
  name_eq : (Path.ofString path).names.getLast? = some name
  walk : fs.walk (startOf (.ofString path)) (Path.ofString path).names.dropLast = .ok dir
  directory : fs.entry? dir = some .directory
  plain : ¬ ((Path.ofString path).closed ∨ name = "." ∨ name = "..")
  free : fs.entry? (dir ++ [name]) ≠ some .directory

/-- **A file is written** where the path leads, and nowhere else. -/
theorem write_eq_ok_iff {fs gs : Files} {path : String} {bytes : List UInt8} :
    fs.write path bytes = .ok gs ↔
      ∃ dir name, fs.Leads path dir name ∧ gs = fs.put (dir ++ [name]) (.file bytes) := by
  unfold write
  constructor
  · intro h
    dsimp only at h
    split at h
    · cases h
    · rename_i name hname
      split at h
      · cases h
      · rename_i dir hwalk
        split at h
        · cases h
        · cases h
        · rename_i hdirectory
          split at h
          · cases h
          · rename_i hplain
            split at h
            · cases h
            · rename_i hfree
              exact ⟨dir, name, ⟨hname, hwalk, hdirectory, hplain, hfree⟩, (Except.ok.inj h).symm⟩
  · rintro ⟨dir, name, hleads, rfl⟩
    dsimp only
    rw [hleads.name_eq]
    dsimp only
    rw [hleads.walk]
    dsimp only
    rw [hleads.directory]
    dsimp only
    rw [if_neg hleads.plain, if_neg hleads.free]

namespace Leads

variable {fs gs : Files} {path : String} {dir : Place} {name : String} {bytes : List UInt8}

theorem mono (h : fs.Leads path dir name) (hpasses : Passes fs gs)
    (hfree : gs.entry? (dir ++ [name]) ≠ some .directory) : gs.Leads path dir name :=
  ⟨h.name_eq, hpasses.walk h.walk, hpasses dir h.directory, h.plain, hfree⟩

theorem resolve (h : fs.Leads path dir name) :
    fs.resolve (.ofString path) = .ok (dir ++ [name]) := by
  obtain ⟨hclosed, hname⟩ := not_or.mp h.plain
  obtain ⟨hdot, hdots⟩ := not_or.mp hname
  have hne : (Path.ofString path).names ≠ [] := by
    intro hnil
    have hlast := h.name_eq
    rw [hnil] at hlast
    cases hlast
  -- the last name is a plain one, so the place is the directory and that name
  have hnames : (Path.ofString path).names = (Path.ofString path).names.dropLast ++ [name] :=
    (List.dropLast_append_getLast? name h.name_eq).symm
  have hmove : move dir name = dir ++ [name] := by rw [move, if_neg hdot, if_neg hdots]
  unfold Files.resolve
  rw [if_neg fun hnone => hne hnone.1, if_neg hclosed, hnames, walk_append [name] h.walk,
    Files.walk, h.directory]
  show Except.ok (move dir name) = _
  rw [hmove]

/-- The place of a file is none of those that are always there. -/
theorem entry?_put (h : fs.Leads path dir name) :
    Files.entry? (fs.put (dir ++ [name]) (.file bytes)) (dir ++ [name]) = some (.file bytes) := by
  rw [Files.entry?_put, if_pos ⟨rfl, fun hfixed => h.free (entry?_fixed fs hfixed)⟩]

theorem passes_put (h : fs.Leads path dir name) :
    Passes fs (fs.put (dir ++ [name]) (.file bytes)) := by
  intro place hplace
  have hne : place ≠ dir ++ [name] := fun heq => h.free (heq ▸ hplace)
  rw [Files.entry?_put, if_neg fun hat => hne hat.1]
  exact hplace

/-- The path still leads there once a file is there. -/
theorem put (h : fs.Leads path dir name) :
    (fs.put (dir ++ [name]) (.file bytes)).Leads path dir name := by
  refine h.mono h.passes_put ?_
  rw [h.entry?_put]
  exact nofun

end Leads

/-- **What is read is what was written**, along the same path. -/
theorem readBytes_write {fs gs : Files} {path : String} {bytes : List UInt8}
    (h : fs.write path bytes = .ok gs) :
    gs.readBytes path = .ok bytes ∧ gs.contains path := by
  obtain ⟨dir, name, hleads, rfl⟩ := write_eq_ok_iff.mp h
  unfold readBytes contains
  rw [hleads.put.resolve]
  dsimp only
  rw [hleads.entry?_put]
  exact ⟨rfl, rfl⟩

/-- The directory of a path can be made, and then a file can be written to the path. -/
def Writable (fs : Files) (path : String) : Prop :=
  ∃ gs, fs.makeParent path = .ok gs ∧ ∃ dir name, gs.Leads path dir name

namespace Writable

variable {fs gs : Files} {path : String}

/-- A path stays writable once its directory was made. -/
theorem of_makeParent (h : fs.Writable path) (hmade : fs.makeParent path = .ok gs) :
    gs.Writable path := by
  obtain ⟨gs', hmade', hleads⟩ := h
  obtain rfl : gs' = gs := Except.ok.inj (hmade'.symm.trans hmade)
  exact ⟨gs', makeParent_again hmade (.refl gs'), hleads⟩

/-- **A path that was written to can be written to again.** -/
theorem of_write {hs : Files} {bytes : List UInt8} (hmade : fs.makeParent path = .ok gs)
    (hwritten : gs.write path bytes = .ok hs) : hs.Writable path := by
  obtain ⟨dir, name, hleads, rfl⟩ := write_eq_ok_iff.mp hwritten
  exact ⟨_, makeParent_again hmade hleads.passes_put, dir, name, hleads.put⟩

end Writable
end ContentSearch.Files
