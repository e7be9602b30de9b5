import ContentSearch.CommandLine.Invocation
import Mathlib.Data.List.Basic

/-!
# Options that can be given anywhere

The portal and the token can be given at every level of a command line, in the two spellings of an
option with a value. Reading takes them through levels that wait for each other, arguments that are
pending and checks that come late, and what comes out is read off the words alone: the last word
that names the option gives its value, up to a bare `--` (`spoken?`). What no word gives, the
environment may.

The proof looks ahead. What an option will have in the end is what the words to come say or, where
they say nothing, what the level holds of it already (`Level.final?`), and each word that is read
moves something from the one to the other without a change of the sum (**`Level.word_final?`**).

There are many ways to read a word and two things that can happen to an option meanwhile: the level
keeps what it has of it (`Level.Keeps`), or it hears its value, or that its value will come
(`Level.Hears`). What every way has in common, settling what was pending before, is said once
(`Level.SettlesTo`). One case falls out of the sum. Where an option waits for its value as a bare
`--` comes, the level is stuck, and no words behind it are accepted any more (`Level.Stuck`).
-/

set_option autoImplicit false

namespace ContentSearch
namespace CommandLine

/-! ## What the words say -/

/-- Whether a word names the option with this name, and the value that it has for it behind an
equals sign. -/
def naming? (name word : String) : Option (Option String) :=
  if word = "--" ++ name then some none
  else (word.toList.dropPrefix? ("--" ++ name ++ "=").toList).map fun v => some (String.ofList v)

/-- **The value that the words give an option**: that of the last word that names it, or the word
behind that one. Behind a bare `--` no word names an option. -/
def spoken? (name : String) : List String → Option String
  | [] => none
  | w :: ws =>
    if w = "--" then none
    else (spoken? name ws).or ((naming? name w).bind fun v => v.orElse fun _ => ws.head?)

/-- The value of an equals sign and what stands behind it, if there is one. -/
def valueBehind : List Char → Option (List Char)
  | _ :: v => some v
  | [] => none

theorem toList_dashes (name : String) : ("--" ++ name).toList = '-' :: '-' :: name.toList := by
  rw [String.toList_append]
  rfl

theorem dropPrefix?_valued_iff {name w : String} {v : List Char} :
    w.toList.dropPrefix? ("--" ++ name ++ "=").toList = some v ↔
      w.toList = '-' :: '-' :: (name.toList ++ '=' :: v) := by
  have hfront : ("--" ++ name ++ "=").toList = '-' :: '-' :: (name.toList ++ ['=']) := by
    rw [String.toList_append, toList_dashes]
    rfl
  rw [List.dropPrefix?_eq_some_iff, hfront]
  simp

/-- A word that is no long option names none. -/
theorem naming?_of_not_dashes (name : String) {w : String} (hw : ∀ r, w.toList ≠ '-' :: '-' :: r) :
    naming? name w = none := by
  have hbare : w ≠ "--" ++ name := by
    rintro rfl
    exact hw _ (toList_dashes name)
  have hvalued : w.toList.dropPrefix? ("--" ++ name ++ "=").toList = none := by
    refine Option.eq_none_iff_forall_not_mem.mpr fun v hv => ?_
    exact hw _ (dropPrefix?_valued_iff.mp hv)
  rw [naming?, if_neg hbare, hvalued]
  rfl

theorem ne_dashes_of_not_dashes {w : String} (hw : ∀ r, w.toList ≠ '-' :: '-' :: r) :
    w ≠ "--" := by
  rintro rfl
  exact hw [] rfl

/-- The name of a long option ends at the first equals sign. -/
theorem naming?_of_dashes {name w : String} (hname : ∀ c ∈ name.toList, c ≠ '=') {r : List Char}
    (hw : w.toList = '-' :: '-' :: r) :
    naming? name w = if r.takeWhile (· ≠ '=') = name.toList
      then some ((valueBehind (r.dropWhile (· ≠ '='))).map String.ofList) else none := by
  have hclean : ∀ c ∈ name.toList, decide (c ≠ '=') := by simpa using hname
  have hbare : w = "--" ++ name ↔ r = name.toList := by
    rw [← String.toList_inj, hw, toList_dashes]
    simp
  have hvalued : ∀ v, w.toList.dropPrefix? ("--" ++ name ++ "=").toList = some v ↔
      r = name.toList ++ '=' :: v := by
    intro v
    rw [dropPrefix?_valued_iff, hw]
    simp
  have hsplit : r.takeWhile (· ≠ '=') ++ r.dropWhile (· ≠ '=') = r :=
    List.takeWhile_append_dropWhile
  -- The name is what stands before the first equals sign. If it is that of the option, then what
  -- follows it tells the two spellings apart; if not, neither spelling fits.
  by_cases htake : r.takeWhile (· ≠ '=') = name.toList
  · rw [if_pos htake]
    rw [htake] at hsplit
    cases hdrop : r.dropWhile (· ≠ '=') with
    | nil =>
      rw [hdrop, List.append_nil] at hsplit
      rw [naming?, if_pos (hbare.mpr hsplit.symm)]
      rfl
    | cons c v =>
      have hc : c = '=' := by
        have hhead := List.head?_dropWhile_not (· ≠ '=') r
        rw [hdrop] at hhead
        simpa using hhead
      rw [hdrop, hc] at hsplit
      have hlonger : ¬ w = "--" ++ name := by
        rw [hbare, ← hsplit]
        simp
      rw [naming?, if_neg hlonger, (hvalued v).mpr hsplit.symm]
      rfl
  · have hother : ∀ v, r ≠ name.toList ++ '=' :: v := by
      rintro v rfl
      refine htake ?_
      rw [List.takeWhile_append_of_pos hclean, List.takeWhile_cons_of_neg (by simp),
        List.append_nil]
    have hother' : r ≠ name.toList := by
      rintro rfl
      refine htake ?_
      rw [← List.append_nil name.toList, List.takeWhile_append_of_pos hclean, List.takeWhile_nil]
    have hnone : w.toList.dropPrefix? ("--" ++ name ++ "=").toList = none :=
      Option.eq_none_iff_forall_not_mem.mpr fun v hv => hother v ((hvalued v).mp hv)
    rw [if_neg htake, naming?, if_neg (mt hbare.mp hother'), hnone]
    rfl

/-! ## What a level holds -/

/-- An option that every level takes, with a value and without a letter of its own. -/
structure Argument.Shared (a : Argument) (name : String) : Prop where
  everywhere : a ∈ Argument.everywhere
  long : a.long? = some name
  short : a.short? = none
  notFlag : a.isFlag = false
  plainName : ∀ c ∈ name.toList, c ≠ '='

theorem shared_portal : Argument.Shared .portal "portal" :=
  ⟨by decide, rfl, rfl, rfl, by decide⟩

theorem shared_token : Argument.Shared .token "token" :=
  ⟨by decide, rfl, rfl, rfl, by decide⟩

/-- Every level knows a shared option by its name. -/
theorem Argument.Shared.long?_eq {a : Argument} {name : String} (ha : a.Shared name)
    (c : Command) : c.long? name = some a := by
  -- the names of the shared options are distinct, so looking one up finds that option
  have hfound : ∀ b ∈ Argument.everywhere,
      Argument.everywhere.find? (·.long? = b.long?) = some b := by
    decide
  have ha' := hfound a ha.everywhere
  rw [ha.long] at ha'
  rw [Command.long?, Command.options, List.find?_append, ha', Option.some_or]

/-- No letter is that of a shared option. -/
theorem Argument.Shared.ne_of_short? {a b : Argument} {name : String} (ha : a.Shared name)
    {c : Command} {letter : Char} (h : c.short? letter = some b) : b ≠ a := by
  rintro rfl
  have hletter : b.short? = some letter := by simpa using List.find?_some h
  rw [ha.short] at hletter
  cases hletter

/-- No other name is that of a shared option. -/
theorem Argument.Shared.ne_of_long? {a b : Argument} {name : String} (ha : a.Shared name)
    {c : Command} {n : List Char} (hn : n ≠ name.toList)
    (h : c.long? (String.ofList n) = some b) : b ≠ a := by
  rintro rfl
  have hname : b.long? = some (String.ofList n) := by simpa using List.find?_some h
  rw [ha.long, Option.some.injEq] at hname
  exact hn (by rw [hname, String.toList_ofList])

namespace Level

variable {l l' : Level} {a b : Argument} {name v : String}

/-- The value of an argument, settled or not. -/
def held? (l : Level) (a : Argument) : Option String :=
  match l.pending with
  | some (b, some v) => if b = a then some v else l.value? a
  | _ => l.value? a

/-- What an option will have when the words to come are read. -/
def final? (l : Level) (a : Argument) (name : String) (words : List String) : Option String :=
  if l.trailing then l.held? a
  else (spoken? name words).or
    ((if l.pending = some (a, none) then words.head? else none).or (l.held? a))

theorem lookup_append_singleton (es : List (Argument × String)) (a b : Argument) (v : String) :
    (es ++ [(b, v)]).lookup a = (es.lookup a).or (if b = a then some v else none) := by
  rw [List.lookup_append, List.lookup_cons, List.lookup_nil]
  by_cases h : a = b
  · rw [h, beq_self_eq_true, if_pos rfl]
  · rw [beq_eq_false_iff_ne.mpr h, if_neg (Ne.symm h)]

theorem take_eq_ok (h : l.take b v = .ok l') :
    l.value? b = none ∧ l' = { l with taken := l.taken ++ [(b, v)] } := by
  unfold take at h
  split at h
  · cases h
  · rename_i hfresh
    split at h
    · cases h
    · cases h
      exact ⟨Option.not_isSome_iff_eq_none.mp hfresh, rfl⟩

theorem value?_take (h : l.take b v = .ok l') (a : Argument) :
    l'.value? a = if b = a then some v else l.value? a := by
  obtain ⟨hfresh, rfl⟩ := take_eq_ok h
  show (l.taken ++ [(b, v)]).lookup a = _
  rw [lookup_append_singleton]
  split
  · rename_i hab
    subst hab
    rw [show l.taken.lookup b = none from hfresh, Option.none_or]
  · exact Option.or_none

/-- Settling keeps what the level holds, and leaves nothing pending. -/
structure SettlesTo (l l' : Level) : Prop where
  notWaiting : l.isWaiting = false
  pending : l'.pending = none
  value : ∀ a, l'.value? a = l.held? a
  operands : l'.operands = l.operands
  trailing : l'.trailing = l.trailing
  command : l'.command = l.command

theorem settlesTo (h : l.settle = .ok l') : l.SettlesTo l' := by
  unfold settle at h
  split at h
  · rename_i hpending
    cases h
    exact ⟨by rw [isWaiting, hpending], hpending, fun a => by rw [held?, hpending], rfl, rfl, rfl⟩
  · cases h
  · rename_i b v hpending
    have hvalue : ∀ a, l'.value? a = l.held? a := fun a => by
      rw [value?_take h, held?, hpending]
      rfl
    obtain ⟨-, rfl⟩ := take_eq_ok h
    exact ⟨by rw [isWaiting, hpending], rfl, hvalue, rfl, rfl, rfl⟩

/-- No operand of a level is one of the options that every level takes. -/
def Tidy (l : Level) : Prop := ∀ b ∈ l.operands, b ∉ Argument.everywhere

theorem Tidy.of_subset (hl : l.Tidy) (h : l'.operands ⊆ l.operands) : l'.Tidy :=
  fun b hb => hl b (h hb)

theorem Tidy.ne_of_operands (hl : l.Tidy) (ha : a.Shared name) {rest : List Argument}
    (h : l.operands = b :: rest) : b ≠ a := by
  rintro rfl
  exact hl b (by rw [h]; exact List.mem_cons_self) ha.everywhere

theorem tidy_enter (c : Command) : (enter c).Tidy := by
  have hall : ∀ b ∈ c.operands, b ∉ Argument.everywhere := by
    cases c <;> decide
  exact hall

/-- What a word does to an option that it has nothing to do with: nothing. Whatever waited for its
value has got it before. -/
structure Keeps (a : Argument) (l l' : Level) : Prop where
  notWaiting : l.isWaiting = false
  notAwaited : l'.pending ≠ some (a, none)
  held : l'.held? a = l.held? a
  operands : l'.operands ⊆ l.operands
  trailing : l'.trailing = l.trailing

theorem Keeps.trans {l'' : Level} (h : Keeps a l l') (h' : Keeps a l' l'') : Keeps a l l'' :=
  ⟨h.notWaiting, h'.notAwaited, h'.held.trans h.held, List.Subset.trans h'.operands h.operands,
    h'.trailing.trans h.trailing⟩

theorem held?_of_not_pending (h : l.pending = none) (a : Argument) : l.held? a = l.value? a := by
  rw [held?, h]

theorem held?_take {l₁ : Level} (hpending : l₁.pending = none) (h : l₁.take b v = .ok l')
    (a : Argument) : l'.pending = none ∧ l'.held? a = if b = a then some v else l₁.value? a := by
  have hnone : l'.pending = none := by
    obtain ⟨-, rfl⟩ := take_eq_ok h
    exact hpending
  exact ⟨hnone, by rw [held?_of_not_pending hnone, value?_take h]⟩

theorem SettlesTo.take_keeps {l₁ : Level} (hl : SettlesTo l l₁) (hab : b ≠ a)
    (h : l₁.take b v = .ok l') : Keeps a l l' := by
  obtain ⟨hnone, hheld⟩ := held?_take hl.pending h a
  rw [if_neg hab, hl.value] at hheld
  obtain ⟨-, rfl⟩ := take_eq_ok h
  exact ⟨hl.notWaiting, by rw [hnone]; nofun, hheld, fun _ hb => hl.operands ▸ hb, hl.trailing⟩

theorem flag_keeps (hab : b ≠ a) (h : l.flag b = .ok l') : Keeps a l l' := by
  unfold flag at h
  split at h
  · cases h
  · rename_i hsettle
    split at h
    · cases h
    · split at h
      · cases h
      · exact (settlesTo hsettle).take_keeps hab h

theorem option_keeps (hab : b ≠ a) {value : Option String} (h : l.option b value = .ok l') :
    Keeps a l l' := by
  unfold option at h
  split at h
  · cases h
  · rename_i l₁ hsettle
    have hl := settlesTo hsettle
    split at h
    · exact hl.take_keeps hab h
    · cases h
      -- what waits for its value now is the other option
      refine ⟨hl.notWaiting, ?_, hl.value a, fun _ hb => hl.operands ▸ hb, hl.trailing⟩
      simpa using hab

/-- What the word of an option does to it: it gets its value, or it waits for it. -/
structure Hears (a : Argument) (value : Option String) (l l' : Level) : Prop where
  notWaiting : l.isWaiting = false
  heard : match value with
    | some v => l'.pending = none ∧ l'.held? a = some v
    | none => l'.pending = some (a, none) ∧ l'.held? a = l.held? a
  operands : l'.operands ⊆ l.operands
  trailing : l'.trailing = l.trailing

theorem option_hears {value : Option String} (h : l.option a value = .ok l') :
    Hears a value l l' := by
  unfold option at h
  split at h
  · cases h
  · rename_i l₁ hsettle
    have hl := settlesTo hsettle
    split at h
    · obtain ⟨hnone, hheld⟩ := held?_take hl.pending h a
      rw [if_pos rfl] at hheld
      obtain ⟨-, rfl⟩ := take_eq_ok h
      exact ⟨hl.notWaiting, ⟨hnone, hheld⟩, fun _ hb => hl.operands ▸ hb, hl.trailing⟩
    · cases h
      exact ⟨hl.notWaiting, ⟨rfl, hl.value a⟩, fun _ hb => hl.operands ▸ hb, hl.trailing⟩

/-- Letters are never those of an option that has none. -/
theorem shorts_keeps (ha : a.Shared name) {cs : List Char} (h : l.shorts cs = .ok l') :
    cs = [] ∧ l' = l ∨ Keeps a l l' := by
  -- along the letters: each that is read is a flag, up to one that takes the rest as its value
  induction cs generalizing l with
  | nil =>
    cases h
    exact .inl ⟨rfl, rfl⟩
  | cons c r ih =>
    rw [shorts] at h
    split at h
    · cases h
    · rename_i b hb
      have hab := ha.ne_of_short? hb
      split at h
      · split at h
        · rename_i l₁ hflag
          have hfirst := flag_keeps hab hflag
          rcases ih h with ⟨-, rfl⟩ | hrest
          · exact .inr hfirst
          · exact .inr (hfirst.trans hrest)
        · cases h
      · exact .inr (option_keeps hab h)

/-- A word behind two dashes is heard by the option that it names and by no other. -/
theorem long_hears (ha : a.Shared name) {n : List Char} {value : Option (List Char)}
    (h : l.long n value = .ok l') :
    if n = name.toList then Hears a (value.map String.ofList) l l' else Keeps a l l' := by
  unfold long at h
  split at h
  · cases h
  · rename_i b hb
    by_cases hn : n = name.toList
    · rw [hn, String.ofList_toList, ha.long?_eq] at hb
      cases hb
      rw [ha.notFlag, if_neg Bool.false_ne_true] at h
      rw [if_pos hn]
      exact option_hears h
    · have hab := ha.ne_of_long? hn hb
      rw [if_neg hn]
      split at h
      · split at h
        · cases h
        · exact flag_keeps hab h
      · exact option_keeps hab h

/-- An operand is no option. -/
theorem operand_keeps (ha : a.Shared name) (hl : l.Tidy) {w : String} (h : l.operand w = .ok l') :
    Keeps a l l' := by
  unfold operand at h
  split at h
  · rename_i b rest hoperands
    have hab := hl.ne_of_operands ha hoperands
    split at h
    · rename_i hsettle
      have hsettles := settlesTo hsettle
      cases h
      refine ⟨hsettles.notWaiting, by simp, ?_, ?_, hsettles.trailing⟩
      · rw [held?]
        dsimp only
        rw [if_neg hab]
        exact hsettles.value a
      · rw [hoperands]
        exact List.subset_cons_self b rest
    · cases h
  · cases h

/-! ## What a word does -/

theorem pending_ne_of_not_waiting (h : l.isWaiting = false) : l.pending ≠ some (a, none) := by
  intro hpending
  rw [isWaiting, hpending] at h
  cases h

theorem final?_of_keeps {ws : List String} {w : String} (h : Keeps a l l')
    (hw : naming? name w = none) (hword : w ≠ "--") :
    l'.final? a name ws = l.final? a name (w :: ws) := by
  rw [final?, final?, h.trailing, h.held, if_neg h.notAwaited,
    if_neg (pending_ne_of_not_waiting h.notWaiting), spoken?, if_neg hword, hw, Option.bind_none,
    Option.or_none]

theorem final?_of_hears {ws : List String} {w : String} {value : Option String}
    (htrailing : l.trailing = false) (h : Hears a value l l') (hw : naming? name w = some value)
    (hword : w ≠ "--") : l'.final? a name ws = l.final? a name (w :: ws) := by
  have hheard := h.heard
  rw [final?, final?, h.trailing, htrailing, if_neg Bool.false_ne_true, if_neg Bool.false_ne_true,
    if_neg (pending_ne_of_not_waiting h.notWaiting), spoken?, if_neg hword, hw, Option.bind_some,
    Option.or_assoc]
  -- A value behind an equals sign is held at once. Without one the next word is the value, which is
  -- where `spoken?` looks for it too.
  cases value with
  | some v =>
    obtain ⟨hnone, hheld⟩ := hheard
    rw [hnone, if_neg nofun, hheld]
    rfl
  | none =>
    obtain ⟨hpending, hheld⟩ := hheard
    rw [hpending, if_pos rfl, hheld]
    rfl

/-- A word behind two dashes gives its option a value, or announces that the next word will. -/
theorem final?_of_long (ha : a.Shared name) (hl : l.Tidy) {ws : List String} {w : String}
    {r : List Char} (htrailing : l.trailing = false) (hw : w.toList = '-' :: '-' :: r)
    (hr : r ≠ [])
    (h : l.long (r.takeWhile (· ≠ '=')) (valueBehind (r.dropWhile (· ≠ '='))) = .ok l') :
    l'.Tidy ∧ l'.final? a name ws = l.final? a name (w :: ws) := by
  have hword : w ≠ "--" := by
    rintro rfl
    cases (show ['-', '-'] = '-' :: '-' :: r from hw)
    exact hr rfl
  have hnaming := naming?_of_dashes ha.plainName hw
  have hhears := long_hears ha h
  split at hhears
  · rename_i hname
    rw [if_pos hname] at hnaming
    exact ⟨hl.of_subset hhears.operands, final?_of_hears htrailing hhears hnaming hword⟩
  · rename_i hname
    rw [if_neg hname] at hnaming
    exact ⟨hl.of_subset hhears.operands, final?_of_keeps hhears hnaming hword⟩

/-- A word that no option is behind is the value that is waited for, or an operand. -/
theorem final?_of_plain (ha : a.Shared name) (hl : l.Tidy) {ws : List String} {w : String}
    (htrailing : l.trailing = false) (hw : ∀ r, w.toList ≠ '-' :: '-' :: r)
    (h : l.plain w = .ok l') : l'.Tidy ∧ l'.final? a name ws = l.final? a name (w :: ws) := by
  have hnaming := naming?_of_not_dashes name hw
  have hword := ne_dashes_of_not_dashes hw
  unfold plain at h
  split at h
  · rename_i b hpending
    cases h
    refine ⟨hl, ?_⟩
    rw [final?, final?, htrailing, if_neg Bool.false_ne_true, if_neg Bool.false_ne_true, spoken?,
      if_neg hword, hnaming, Option.bind_none, Option.or_none, held?, held?, hpending,
      List.head?_cons]
    dsimp only
    rw [if_neg (by simp), Option.none_or]
    -- the value is that of the option that waits for it, whichever that is
    by_cases hab : b = a
    · rw [if_pos hab, hab, if_pos rfl, Option.some_or]
    · rw [if_neg hab, if_neg (by simpa using hab), Option.none_or]
      rfl
  · have hkeeps := operand_keeps ha hl h
    exact ⟨hl.of_subset hkeeps.operands, final?_of_keeps hkeeps hnaming hword⟩

/-- Behind a bare `--`, an option that waits for its value waits in vain. -/
def Stuck (l : Level) : Prop := l.isWaiting ∧ l.trailing

/-- **Reading a word changes nothing of what an option will have**, or the level is stuck. -/
theorem word_final? (ha : a.Shared name) (hl : l.Tidy) {w : String} (h : l.word w = .ok l')
    (ws : List String) :
    l'.Stuck ∨ l'.Tidy ∧ l'.final? a name ws = l.final? a name (w :: ws) := by
  unfold word at h
  -- A level reads a word in one of five ways: everything behind a bare `--` is an operand; before
  -- that it is the `--` itself, a long option, letters, or a word without dashes.
  split at h
  · rename_i htrailing
    have hkeeps := operand_keeps ha hl h
    refine .inr ⟨hl.of_subset hkeeps.operands, ?_⟩
    rw [final?, final?, hkeeps.trailing, if_pos htrailing, if_pos htrailing, hkeeps.held]
  · rename_i htrailing
    rw [Bool.not_eq_true] at htrailing
    split at h
    · rename_i hdashes
      cases h
      by_cases hwaiting : l.isWaiting
      · exact .inl ⟨hwaiting, rfl⟩
      · obtain rfl : w = "--" := String.toList_inj.mp hdashes
        rw [Bool.not_eq_true] at hwaiting
        refine .inr ⟨hl, ?_⟩
        rw [final?, final?, if_pos rfl, htrailing, if_neg Bool.false_ne_true,
          if_neg (pending_ne_of_not_waiting hwaiting), spoken?, if_pos rfl, Option.none_or,
          Option.none_or]
        rfl
    · rename_i r hlonger hdashes
      exact .inr (final?_of_long ha hl htrailing hdashes hlonger h)
    · rename_i c r _ hsecond hdash
      have hnot : ∀ r', w.toList ≠ '-' :: '-' :: r' := by
        intro r' hr'
        rw [hdash] at hr'
        exact hsecond (List.cons.inj (List.cons.inj hr').2).1
      rcases shorts_keeps ha h with ⟨hnil, -⟩ | hkeeps
      · cases hnil
      · exact .inr ⟨hl.of_subset hkeeps.operands, final?_of_keeps hkeeps
          (naming?_of_not_dashes name hnot) (ne_dashes_of_not_dashes hnot)⟩
    · rename_i _ hnolong _
      exact .inr (final?_of_plain ha hl htrailing hnolong h)

end Level

/-! ## All levels -/

/-- The words that lead on to a command name no option. -/
theorem Command.not_dashes_of_child? {c d : Command} {w : String} (h : c.child? w = some d) :
    ∀ r, w.toList ≠ '-' :: '-' :: r := by
  -- no name of a command begins with a dash
  have hchildren : ∀ c : Command, ∀ e ∈ c.children, e.1.toList.head? ≠ some '-' := by
    intro c
    cases c <;> decide
  have hhead : w.toList.head? ≠ some '-' := by
    unfold child? at h
    split at h
    · rename_i hhelp
      rw [hhelp.2]
      decide
    · obtain ⟨before, after, hlist, -⟩ := List.lookup_eq_some_iff.mp h
      exact hchildren c (w, d) (by rw [hlist]; simp)
  intro r hr
  rw [hr] at hhead
  exact hhead rfl

/-- Nothing can be read at a level that is stuck. -/
theorem Level.Stuck.readWords_ne_ok {l : Level} (hl : l.Stuck) (outer : List Level) (w : String)
    (ws : List String) (r : Level × List Level) : readWords outer l (w :: ws) ≠ .ok r := by
  obtain ⟨hwaiting, htrailing⟩ := hl
  -- an operand settles what is pending first, and what is pending has no value
  have hsettle : l.settle = .error (.fault .missingValue) := by
    unfold isWaiting at hwaiting
    split at hwaiting
    · rename_i b hpending
      rw [settle, hpending]
    · cases hwaiting
  have hword : ∀ l', l.word w ≠ .ok l' := by
    intro l' h
    rw [word, if_pos htrailing, operand, hsettle] at h
    split at h <;> cases h
  have hnext : l.next? w = none := by simp [next?, htrailing]
  intro h
  rw [readWords, hnext] at h
  dsimp only at h
  split at h
  · rename_i hok
    exact hword _ hok
  · cases h

/-- The value that an argument has at the innermost level that holds it. -/
def heldAt? (levels : List Level) (a : Argument) : Option String := levels.findSome? (·.held? a)

theorem heldAt?_cons (l : Level) (outer : List Level) (a : Argument) :
    heldAt? (l :: outer) a = (l.held? a).or (heldAt? outer a) := by
  rw [heldAt?, List.findSome?_cons]
  cases l.held? a <;> rfl

theorem Level.final?_enter (c : Command) (a : Argument) (name : String) (ws : List String) :
    (enter c).final? a name ws = spoken? name ws := by
  show (spoken? name ws).or ((if none = some (a, none) then ws.head? else none).or none) = _
  rw [if_neg nofun, Option.or_none, Option.or_none]

theorem Level.next?_eq_some {l : Level} {c : Command} {w : String} (h : l.next? w = some c) :
    l.trailing = false ∧ l.isWaiting = false ∧ l.command.child? w = some c := by
  unfold next? at h
  split at h
  · cases h
  · rename_i hfree
    simp only [Bool.or_eq_true, not_or, Bool.not_eq_true] at hfree
    exact ⟨hfree.1, hfree.2, h⟩

/-- A word that leads on to another command says nothing of an option. -/
theorem Level.final?_of_next? {l : Level} {c : Command} {w : String} (h : l.next? w = some c)
    (a : Argument) (name : String) (ws : List String) :
    l.final? a name (w :: ws) = (spoken? name ws).or (l.held? a) := by
  obtain ⟨htrailing, hwaiting, hchild⟩ := Level.next?_eq_some h
  have hnot := Command.not_dashes_of_child? hchild
  rw [final?, htrailing, if_neg Bool.false_ne_true, if_neg (pending_ne_of_not_waiting hwaiting),
    spoken?, if_neg (ne_dashes_of_not_dashes hnot), naming?_of_not_dashes name hnot,
    Option.bind_none, Option.or_none, Option.none_or]

/-- **What the levels hold in the end** is what the words had to say, or what they held before. -/
theorem readWords_heldAt? {a : Argument} {name : String} (ha : a.Shared name) {l l' : Level}
    (hl : l.Tidy) {outer outer' : List Level} {ws : List String}
    (h : readWords outer l ws = .ok (l', outer')) (hend : l'.isWaiting = false) :
    heldAt? (l' :: outer') a = (l.final? a name ws).or (heldAt? outer a) := by
  -- along the words; the invariant is the right-hand side, for the level that is read at
  induction ws generalizing l outer with
  | nil =>
    cases h
    rw [heldAt?_cons, Level.final?]
    simp [spoken?]
  | cons w ws ih =>
    rw [readWords] at h
    split at h
    · cases h
    · -- another level is opened, and what this one holds counts behind it
      rename_i c _ hnext
      rw [ih (Level.tidy_enter c) h, Level.final?_enter, heldAt?_cons, Level.final?_of_next? hnext,
        Option.or_assoc]
    · split at h
      · rename_i l₁ hword
        rcases Level.word_final? ha hl hword ws with hstuck | ⟨htidy, hfinal⟩
        · cases ws with
          | nil =>
            -- a value that is still waited for when the words end is missed at the end
            cases h
            rw [hstuck.1] at hend
            cases hend
          | cons w' ws => exact absurd h (hstuck.readWords_ne_ok outer w' ws _)
        · rw [ih htidy h, hfinal]
      · cases h

/-! ## The end of the reading -/

theorem Level.settlesTo_finish {l l' : Level} {standIns : List (Argument × String)} {leadsOn : Bool}
    (h : l.finish standIns leadsOn = .ok l') : l.SettlesTo l' :=
  settlesTo (settle_of_finish h)

theorem findSome?_finishAll {standIns : List (Argument × String)} {outer outer' : List Level}
    (h : finishAll standIns outer = .ok outer') (a : Argument) :
    outer'.findSome? (·.value? a) = heldAt? outer a := by
  -- level by level; the end of a level settles it, and what it held is its value then
  induction outer generalizing outer' with
  | nil =>
    cases h
    rfl
  | cons l outer ih =>
    obtain ⟨m, rest, hfinish, hrest, rfl⟩ := finishAll_cons_eq_ok_iff.mp h
    rw [List.findSome?_cons, (Level.settlesTo_finish hfinish).value, ih hrest, heldAt?_cons]
    cases l.held? a <;> rfl

/-- **What the levels say is what the words say.** -/
theorem readLevels_value? {a : Argument} {name : String} (ha : a.Shared name)
    {standIns : List (Argument × String)} {words : List String} {l : Level} {outer : List Level}
    (h : readLevels standIns words = .ok (l, outer)) :
    (l :: outer).findSome? (·.value? a) = spoken? name words := by
  obtain ⟨l₁, outer₁, hread, hfinish, hrest⟩ := readLevels_eq_ok_iff.mp h
  have hsettles := Level.settlesTo_finish hfinish
  have hheld := readWords_heldAt? ha (Level.tidy_enter .top) hread hsettles.notWaiting
  rw [Level.final?_enter, heldAt?_cons] at hheld
  rw [List.findSome?_cons, hsettles.value, findSome?_finishAll hrest,
    ← hheld.trans Option.or_none]
  -- `or` and `findSome?` differ only in how they look at the innermost level
  cases l₁.held? a <;> rfl

theorem standIns_eq (e : Environment) :
    standIns e = (e.lookup "HS_PORTAL").toList.map (.portal, ·)
      ++ (e.lookup "HS_TOKEN").toList.map (.token, ·) := by
  unfold standIns Argument.everywhere
  simp only [List.filterMap_cons, List.filterMap_nil, Argument.standIn?, Option.bind_none,
    Option.bind_some, Option.map_none]
  cases e.lookup "HS_PORTAL" <;> cases e.lookup "HS_TOKEN" <;> rfl

theorem lookup_standIns (e : Environment) :
    (standIns e).lookup .portal = e.lookup "HS_PORTAL" ∧
      (standIns e).lookup .token = e.lookup "HS_TOKEN" := by
  rw [standIns_eq]
  cases e.lookup "HS_PORTAL" <;> cases e.lookup "HS_TOKEN" <;> exact ⟨rfl, rfl⟩

end CommandLine

/-- **The portal and the token of an invocation**: the words come first, the environment second. -/
theorem Invocation.spoken_of_ofWords {environment : Environment} {words : List String}
    {i : Invocation} (h : ofWords environment words = .ok i) :
    i.portal = (CommandLine.spoken? "portal" words).or (environment.lookup "HS_PORTAL") ∧
      i.token = (CommandLine.spoken? "token" words).or (environment.lookup "HS_TOKEN") := by
  obtain ⟨l, outer, hlevels, hi⟩ := ofWords_eq_ok_iff.mp h
  obtain ⟨task, -, rfl⟩ := Option.map_eq_some_iff.mp hi
  obtain ⟨hportal, htoken⟩ := CommandLine.lookup_standIns environment
  dsimp only
  rw [CommandLine.readLevels_value? CommandLine.shared_portal hlevels,
    CommandLine.readLevels_value? CommandLine.shared_token hlevels, hportal, htoken,
    Option.orElse_eq_or, Option.orElse_eq_or]
  exact ⟨rfl, rfl⟩

/-- The innermost portal counts, which is the last one, and nothing counts behind a bare `--`. -/
example : CommandLine.spoken? "portal" ["--portal", "a", "search", "--portal=b", "--", "--portal=c"]
    = some "b" := by
  decide

end ContentSearch
