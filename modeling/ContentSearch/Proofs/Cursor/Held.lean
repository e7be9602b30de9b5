import ContentSearch.CommandLine.Invocation
import ContentSearch.Portal.Page
import ContentSearch.Proofs.Cursor.Token
import ContentSearch.Proofs.Query.Parameters

/-!
# The cursors that a program can hold

Nothing keeps a cursor from having no start or no size, and a token with such a cursor in it is read
as the first page. So it is for those who make cursors to make good ones. There are six of them, and
each has a lemma below that what it makes is *sound*: it names a page, and it fits its 32 bits. A
reader falls back on the first page, a step onwards stops at the greatest start, a page without a
size is followed by one of the usual size, the command line takes no zero, and compiling reads.

What a run can hold is what they make, in any number of steps (`Held`), and an induction over the
steps is all that is left: every cursor that is held is sound (**`Held.sound`**). A sound cursor
survives being written out (**`Sound.decode_token`**).

The two numbers of a form are looked at as a portal would: the body is taken apart again, and the
text under each name is read as a number.
-/

set_option autoImplicit false

namespace ContentSearch

open Text

/-- A cursor that names a page and fits its width. -/
structure Cursor.Sound (c : Cursor) : Prop where
  start_pos : 1 ≤ c.start
  start_lt : c.start < Decimal.limit32
  size_pos : 1 ≤ c.size
  size_lt : c.size < Decimal.limit32

/-! ## Those who make cursors -/

theorem Json.Value.lt_of_asNat? {limit n : Nat} {v : Json.Value} (h : v.asNat? limit = some n) :
    n < limit := by
  unfold Json.Value.asNat? at h
  split at h
  · split at h
    · rename_i hbounds
      cases h
      omega
    · cases h
  · cases h

namespace Cursor

theorem first_sound : first.Sound := ⟨by decide, by decide, by decide, by decide⟩

theorem lt_of_ofFields? {es : Entries Json.Value} {c : Cursor} (h : ofFields? es = some c) :
    c.start < Decimal.limit32 ∧ c.size < Decimal.limit32 := by
  unfold ofFields? Json.requiredField? at h
  split at h
  · rename_i start size hstart hsize
    cases h
    obtain ⟨v, -, hv⟩ := Option.bind_eq_some_iff.mp hstart
    obtain ⟨w, -, hw⟩ := Option.bind_eq_some_iff.mp hsize
    exact ⟨Json.Value.lt_of_asNat? hv, Json.Value.lt_of_asNat? hw⟩
  · cases h

theorem ofBytes?_sound {bytes : List UInt8} {c : Cursor} (h : ofBytes? bytes = some c) :
    c.Sound := by
  unfold ofBytes? at h
  split at h
  · split at h
    · rename_i hfields
      split at h
      · -- the reader of the numbers sees to their width, and the check to their being positive
        rename_i hvalid
        cases h
        obtain ⟨hstart, hsize⟩ := lt_of_ofFields? hfields
        simp only [isValid, Bool.and_eq_true, decide_eq_true_eq] at hvalid
        exact ⟨hvalid.1, hstart, hvalid.2, hsize⟩
      · cases h
    · cases h
  · cases h

/-- **Whatever a token is, the cursor it stands for is sound.** -/
theorem decode_sound (token : Option String) : (decode token).Sound := by
  cases token with
  | none => exact first_sound
  | some token =>
    show ((ofToken? token).getD first).Sound
    cases h : ofToken? token with
    | none => exact first_sound
    | some c =>
      obtain ⟨bytes, -, hbytes⟩ := Option.bind_eq_some_iff.mp h
      exact ofBytes?_sound hbytes

theorem Sound.next {c : Cursor} (h : c.Sound) : c.next.Sound := by
  have hmost : most = Decimal.limit32 - 1 := rfl
  have hlimit : Decimal.limit32 = 4294967296 := rfl
  have hstart := h.start_pos
  refine ⟨?_, ?_, h.size_pos, h.size_lt⟩
  · show 1 ≤ min (c.start + c.size) most
    omega
  · show min (c.start + c.size) most < Decimal.limit32
    omega

end Cursor

/-- A page says with a number of 32 bits how many results it has. -/
theorem Page.next?_sound {p : Page} (hsize : p.size < Decimal.limit32) {c : Cursor}
    (h : p.next? = some c) : c.Sound := by
  have hmost : Cursor.most = Decimal.limit32 - 1 := rfl
  have hlimit : Decimal.limit32 = 4294967296 := rfl
  have hfirst : Cursor.first.size = 10 := rfl
  unfold Page.next? at h
  split at h
  · rename_i hstart
    cases h
    refine ⟨?_, ?_, ?_, ?_⟩
    · show 1 ≤ p.nextStart.toNat
      omega
    · show p.nextStart.toNat < Decimal.limit32
      omega
    · show 1 ≤ if 0 < p.size then p.size else Cursor.first.size
      split <;> omega
    · show (if 0 < p.size then p.size else Cursor.first.size) < Decimal.limit32
      split <;> omega
  · cases h

namespace CommandLine

theorem Argument.positive?_bounds {s : String} {n : Nat} (h : Argument.positive? s = some n) :
    1 ≤ n ∧ n < Decimal.limit32 := by
  unfold Argument.positive? at h
  split at h
  · rename_i hread
    split at h
    · rename_i hpos
      cases h
      exact ⟨hpos, Decimal.lt_of_read (by decide) hread⟩
    · cases h
  · cases h

/-- A number of a command line, or what stands in for it. -/
theorem positive?_getD_bounds (v : Option String) {n : Nat} (hpos : 1 ≤ n)
    (hlt : n < Decimal.limit32) :
    1 ≤ (v.bind Argument.positive?).getD n ∧
      (v.bind Argument.positive?).getD n < Decimal.limit32 := by
  cases h : v.bind Argument.positive? with
  | none => exact ⟨hpos, hlt⟩
  | some m =>
    obtain ⟨s, -, hs⟩ := Option.bind_eq_some_iff.mp h
    exact Argument.positive?_bounds hs

theorem Level.cursor_sound (l : Level) : l.cursor.Sound := by
  obtain ⟨hstart, hstart'⟩ := positive?_getD_bounds (l.value? .start)
    Cursor.first_sound.start_pos Cursor.first_sound.start_lt
  obtain ⟨hsize, hsize'⟩ := positive?_getD_bounds (l.value? .size)
    Cursor.first_sound.size_pos Cursor.first_sound.size_lt
  exact ⟨hstart, hstart', hsize, hsize'⟩

theorem Level.eq_cursor_of_task? {l : Level} {c : Cursor}
    (h : l.task? = some (.encodeCursor c)) : c = l.cursor := by
  unfold Level.task? at h
  split at h
  -- only one command has such a task, and it takes the cursor of its level
  case h_3 =>
    cases h
    rfl
  case h_9 =>
    obtain ⟨shell, -, hshell⟩ := Option.map_eq_some_iff.mp h
    cases hshell
  all_goals cases h

end CommandLine

/-- The task of an invocation is what its innermost level says. -/
theorem Invocation.task_of_ofWords {environment : Environment} {words : List String}
    {i : Invocation} (h : Invocation.ofWords environment words = .ok i) :
    ∃ l : CommandLine.Level, l.task? = some i.task := by
  obtain ⟨l, outer, -, hi⟩ := Invocation.ofWords_eq_ok_iff.mp h
  obtain ⟨task, htask, rfl⟩ := Option.map_eq_some_iff.mp hi
  exact ⟨l, htask⟩

/-! ## What they make -/

namespace Cursor

/-- The cursors that a program can come to hold. -/
inductive Held : Cursor → Prop
  | first : Held first
  | decoded (token : Option String) : Held (decode token)
  | next {c : Cursor} (h : Held c) : Held c.next
  | announced {p : Page} (hsize : p.size < Decimal.limit32) {c : Cursor}
      (h : p.next? = some c) : Held c
  | spoken {environment : Environment} {words : List String} {i : Invocation}
      (h : Invocation.ofWords environment words = .ok i) {c : Cursor}
      (htask : i.task = .encodeCursor c) : Held c
  | compiled (filter : Filter) (options : Options) (service : Connection) :
      Held (Query.compile filter options service).page

/-- **Every cursor that is held is sound.** -/
theorem Held.sound {c : Cursor} (h : Held c) : c.Sound := by
  induction h with
  | first => exact first_sound
  | decoded token => exact decode_sound token
  | next _ ih => exact ih.next
  | announced hsize h => exact Page.next?_sound hsize h
  | spoken h htask =>
    obtain ⟨l, hl⟩ := Invocation.task_of_ofWords h
    rw [htask] at hl
    rw [CommandLine.Level.eq_cursor_of_task? hl]
    exact l.cursor_sound
  | compiled filter options service => exact decode_sound options.page

/-- **A sound cursor is read back from its token.** -/
theorem Sound.decode_token {c : Cursor} (h : c.Sound) : decode (some c.token) = c := by
  have hvalid : c.isValid = true := by
    simp only [isValid, Bool.and_eq_true, decide_eq_true_eq]
    exact ⟨h.start_pos, h.size_pos⟩
  have hblank : ∀ x ∈ "".toList, isBlank x := by simp
  have htoken := ofToken?_surrounded c hblank hblank
  rw [String.empty_append, String.append_empty, ofBytes?_compact h.start_lt h.size_lt,
    if_pos hvalid] at htoken
  rw [decode, htoken]
  rfl

end Cursor

/-! ## What compiling makes of them -/

/-- The start and the size of a compiled query, read off its form. -/
theorem Query.read_parameter? (filter : Filter) (options : Options) (service : Connection) :
    ∀ name ∈ ["start", "num"], ∃ text n,
      Entries.find? name (Form.decode (compile filter options service).formBody.toList) = some text ∧
        Decimal.read Decimal.limit32 text.toList = .ok n ∧ 1 ≤ n := by
  have hsound := Cursor.decode_sound options.page
  intro name hname
  rw [find?_decode_formBody]
  -- a number that is written in decimal digits is read back as it is
  rcases List.mem_cons.mp hname with rfl | hname
  · refine ⟨_, _, rfl, ?_, hsound.start_pos⟩
    rw [String.toList_ofList]
    exact Decimal.read_write hsound.start_lt
  · rw [List.mem_singleton.mp hname]
    refine ⟨_, _, rfl, ?_, hsound.size_pos⟩
    rw [String.toList_ofList]
    exact Decimal.read_write hsound.size_lt

namespace Cursor

/-- **Every cursor that a program can hold names a page and survives being written out.** So every
compiled query names a page, and its form has a start and a size to be read that are numbers from
one upwards, whatever the page of its options is. -/
theorem held_cursors_survive :
    (∀ c, Held c → c.Sound ∧ decode (some c.token) = c) ∧
      ∀ filter options service,
        let q := Query.compile filter options service
        q.page.Sound ∧ ∀ name ∈ ["start", "num"], ∃ text n,
          Entries.find? name (Form.decode q.formBody.toList) = some text ∧
            Decimal.read Decimal.limit32 text.toList = .ok n ∧ 1 ≤ n := by
  refine ⟨fun c h => ⟨h.sound, h.sound.decode_token⟩, fun filter options service => ?_⟩
  exact ⟨(Held.compiled filter options service).sound,
    Query.read_parameter? filter options service⟩

/-- A page without a size that is followed by the last pages there are, and the step behind it,
which stops at the greatest start. -/
theorem held_cursors_survive_sample :
    let page : Page := ⟨0, 1, 0, 4294967290, [], none⟩
    page.next? = some ⟨4294967290, 10⟩ ∧ Held ⟨4294967295, 10⟩ ∧ Sound ⟨4294967295, 10⟩ ∧
      decode (some (token ⟨4294967295, 10⟩)) = ⟨4294967295, 10⟩ := by
  intro page
  have hnext : page.next? = some ⟨4294967290, 10⟩ := by decide
  have hheld : Held ⟨4294967295, 10⟩ := (Held.announced (by decide) hnext).next
  have hsurvives := held_cursors_survive.1 ⟨4294967295, 10⟩ hheld
  exact ⟨hnext, hheld, hsurvives⟩

end Cursor
end ContentSearch
