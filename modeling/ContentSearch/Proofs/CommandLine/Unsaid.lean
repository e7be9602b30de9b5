import ContentSearch.Proofs.CommandLine.Spoken

/-!
# Leaving an option unsaid

An option that can be given anywhere can also be left out anywhere. Take away the words that name
it, each with its value (`unsaid`): the command line that is left is accepted if the whole was, and
it asks for the same but for that option (**`Invocation.ofWords_unsaid`**).

The two are not read in step. The word of an option settles what was pending before it, and where
that word is missing the settling comes later, perhaps only at the end. So a level of the whole may
be ahead of its counterpart (`Level.Without`). What it has settled was in order, and settling is all
that its counterpart is behind with.

`unsaid` is a function on words that knows nothing of levels. It is compared with the reading
through the words that are *left* for the counterpart where a level stands (`Level.left`): at a
level that waits for the value of the option the first word goes, whatever it looks like, and behind
a bare `--` nothing goes. A word is then read by both sides or by the whole alone
(**`Level.Without.word_left`**), which carries the induction over the words
(**`readWords_unsaid`**). The levels around the innermost one only wait meanwhile; they are compared
pair by pair when the reading is over (`finishAll_unsaid`).

Only command lines that are accepted are spoken of. What is told of one that is not depends on the
order in which arguments settle, and that may be another without the option.
-/

set_option autoImplicit false

namespace ContentSearch
namespace CommandLine

/-- The words without those that give the option a value. Behind a bare `--` no word does. -/
def unsaid (name : String) : List String → List String
  | [] => []
  | w :: ws =>
    if w = "--" then w :: ws
    else match naming? name w, ws with
      | none, ws => w :: unsaid name ws
      | some (some _), ws => unsaid name ws
      | some none, [] => []
      | some none, _ :: ws => unsaid name ws

section
variable {name w : String} {ws : List String}

theorem unsaid_of_dashes (name : String) (ws : List String) :
    unsaid name ("--" :: ws) = "--" :: ws := by
  rw [unsaid.eq_def]
  exact if_pos rfl

theorem unsaid_of_naming?_none (hword : w ≠ "--") (h : naming? name w = none) :
    unsaid name (w :: ws) = w :: unsaid name ws := by
  rw [unsaid.eq_def]
  dsimp only
  rw [if_neg hword, h]

theorem unsaid_of_naming?_valued (hword : w ≠ "--") {v : String}
    (h : naming? name w = some (some v)) : unsaid name (w :: ws) = unsaid name ws := by
  rw [unsaid.eq_def]
  dsimp only
  rw [if_neg hword, h]

theorem unsaid_of_naming?_bare (hword : w ≠ "--") (h : naming? name w = some none) :
    unsaid name (w :: ws) = unsaid name ws.tail := by
  rw [unsaid.eq_def]
  dsimp only
  rw [if_neg hword, h]
  cases ws <;> rfl

end

namespace Level

variable {l l' m : Level} {a b : Argument} {name v : String}

/-! ## Levels without an option -/

/-- The level without what is settled of an option. -/
def strip (a : Argument) (l : Level) : Level := { l with taken := l.taken.filter (·.1 ≠ a) }

theorem value?_strip (hab : b ≠ a) (l : Level) : (l.strip a).value? b = l.value? b := by
  show (l.taken.filter (·.1 ≠ a)).lookup b = l.taken.lookup b
  induction l.taken with
  | nil => rfl
  | cons e es ih =>
    obtain ⟨c, w⟩ := e
    by_cases hc : c = a
    · have hbc : (b == c) = false := beq_eq_false_iff_ne.mpr (hc ▸ hab)
      rw [List.filter_cons_of_neg (by simpa using hc), List.lookup_cons, hbc]
      exact ih
    · rw [List.filter_cons_of_pos (by simpa using hc), List.lookup_cons, List.lookup_cons, ih]

theorem has_strip (hab : b ≠ a) (l : Level) : (l.strip a).has b = l.has b :=
  congrArg Option.isSome (value?_strip hab l)

/-- Taking another argument and leaving out the option can change places. -/
theorem take_strip (hab : b ≠ a) (h : l.take b v = .ok m) :
    (l.strip a).take b v = .ok (m.strip a) := by
  unfold take at h ⊢
  rw [has_strip hab]
  -- an argument is refused if it is there already, and what is left out is another one
  split at h
  · cases h
  · rename_i hfresh
    rw [if_neg hfresh]
    split at h
    · cases h
    · cases h
      simp [strip, List.filter_append, hab]

theorem strip_take_self (h : l.take a v = .ok m) : m.strip a = l.strip a := by
  obtain ⟨-, rfl⟩ := take_eq_ok h
  simp [strip, List.filter_append]

/-- Where the reading stands without the words of an option, where it stands at a level with them:
at the same level but for the option, or behind with settling it. -/
inductive Without (a : Argument) (l : Level) : Level → Prop
  | alike (h : ∀ v, l.pending ≠ some (a, v)) : Without a l (l.strip a)
  | behind {l' : Level} (h : ∀ b v, l.pending = some (b, v) → b = a)
      (hsettle : l'.settle = .ok { l.strip a with pending := none }) : Without a l l'

theorem Without.enter (a : Argument) (c : Command) : Without a (enter c) (enter c) :=
  .alike nofun

/-- **Settling catches up.** -/
theorem Without.settle (h : Without a l l') (hm : l.settle = .ok m) :
    l'.settle = .ok (m.strip a) := by
  -- Where the two are alike, both settle the same thing, which is not the option. Where the
  -- counterpart is behind, the whole settles the option or nothing, and `strip` undoes that.
  cases h with
  | alike h =>
    have hsame : (l.strip a).pending = l.pending := rfl
    unfold Level.settle at hm ⊢
    rw [hsame]
    cases hpending : l.pending with
    | none =>
      rw [hpending] at hm
      cases hm
      rfl
    | some p =>
      obtain ⟨b, v⟩ := p
      have hab : b ≠ a := fun heq => h v (heq ▸ hpending)
      rw [hpending] at hm
      cases v with
      | none => cases hm
      | some v => exact take_strip hab hm
  | behind h hsettle =>
    rw [hsettle]
    unfold Level.settle at hm
    cases hpending : l.pending with
    | none =>
      rw [hpending] at hm
      cases hm
      rw [strip, hpending]
    | some p =>
      obtain ⟨b, v⟩ := p
      obtain rfl := h b v hpending
      rw [hpending] at hm
      cases v with
      | none => cases hm
      | some v => rw [strip_take_self hm]; rfl

/-- The two know the same commands, options and operands. -/
structure SameFrame (l l' : Level) : Prop where
  command : l'.command = l.command
  operands : l'.operands = l.operands
  trailing : l'.trailing = l.trailing

theorem Without.sameFrame (h : Without a l l') : SameFrame l l' := by
  cases h with
  | alike h => exact ⟨rfl, rfl, rfl⟩
  | behind h hsettle =>
    have hsettles := settlesTo hsettle
    exact ⟨hsettles.command.symm, hsettles.operands.symm, hsettles.trailing.symm⟩

theorem Without.isWaiting_eq (h : Without a l l') (hfree : l.pending ≠ some (a, none)) :
    l'.isWaiting = l.isWaiting := by
  cases h with
  | alike h => rfl
  | behind h hsettle =>
    rw [(settlesTo hsettle).notWaiting]
    unfold isWaiting
    split
    · rename_i b hpending
      obtain rfl := h b none hpending
      exact absurd hpending hfree
    · rfl

theorem Without.next?_eq (h : Without a l l') (hfree : l.pending ≠ some (a, none)) (w : String) :
    l'.next? w = l.next? w := by
  rw [next?, next?, h.isWaiting_eq hfree, h.sameFrame.command, h.sameFrame.trailing]

/-! ## What a word does -/

theorem Without.take (hpending : l.pending = none) (hab : b ≠ a) (hm : l.take b v = .ok m) :
    ∃ m', (l.strip a).take b v = .ok m' ∧ Without a m m' := by
  refine ⟨_, take_strip hab hm, .alike ?_⟩
  rw [(held?_take hpending hm a).1]
  nofun

theorem Without.flag (h : Without a l l') (hab : b ≠ a) (hm : l.flag b = .ok m) :
    ∃ m', l'.flag b = .ok m' ∧ Without a m m' := by
  unfold Level.flag at hm ⊢
  split at hm
  · cases hm
  · rename_i l₁ hsettle
    have hpending := (settlesTo hsettle).pending
    rw [h.settle hsettle]
    dsimp only
    split at hm
    · cases hm
    · rename_i hhelp
      split at hm
      · cases hm
      · rename_i hversion
        rw [if_neg hhelp, if_neg hversion]
        exact Without.take hpending hab hm

theorem Without.option (h : Without a l l') (hab : b ≠ a) {value : Option String}
    (hm : l.option b value = .ok m) : ∃ m', l'.option b value = .ok m' ∧ Without a m m' := by
  unfold Level.option at hm ⊢
  split at hm
  · cases hm
  · rename_i l₁ hsettle
    have hpending := (settlesTo hsettle).pending
    rw [h.settle hsettle]
    dsimp only
    split at hm
    · exact Without.take hpending hab hm
    · cases hm
      exact ⟨_, rfl, .alike (by simp [hab])⟩

/-- The word of the option itself leaves the counterpart where it is. -/
theorem Without.option_self (h : Without a l l') {value : Option String}
    (hm : l.option a value = .ok m) : Without a m l' := by
  unfold Level.option at hm
  split at hm
  · cases hm
  · rename_i l₁ hsettle
    have hpending := (settlesTo hsettle).pending
    have hsettle' := h.settle hsettle
    -- The word settles what was pending before it. The counterpart has not seen the word: from here
    -- on it is behind by this settling.
    have hcleared : l₁.strip a = { l₁.strip a with pending := none } := by
      rw [strip, hpending]
    rw [hcleared] at hsettle'
    split at hm
    · refine .behind ?_ (by rw [strip_take_self hm]; exact hsettle')
      rw [(held?_take hpending hm a).1]
      nofun
    · cases hm
      refine .behind ?_ hsettle'
      intro b v hb
      exact (Prod.mk.inj (Option.some.inj hb)).1.symm

theorem Without.shorts (ha : a.Shared name) (h : Without a l l') {cs : List Char}
    (hm : l.shorts cs = .ok m) : ∃ m', l'.shorts cs = .ok m' ∧ Without a m m' := by
  -- along the letters; none of them is the option, which only a long name gives
  induction cs generalizing l l' with
  | nil =>
    cases hm
    exact ⟨l', rfl, h⟩
  | cons c r ih =>
    rw [Level.shorts] at hm ⊢
    rw [h.sameFrame.command]
    split at hm
    · cases hm
    · rename_i b hb
      have hab := ha.ne_of_short? hb
      split at hm
      · rename_i hflag
        rw [if_pos hflag]
        split at hm
        · rename_i l₁ hl₁
          obtain ⟨l₁', hl₁', hwithout⟩ := h.flag hab hl₁
          rw [hl₁']
          exact ih hwithout hm
        · cases hm
      · rename_i hflag
        rw [if_neg hflag]
        exact h.option hab hm

theorem Without.long (ha : a.Shared name) (h : Without a l l') {n : List Char}
    {value : Option (List Char)} (hn : n ≠ name.toList) (hm : l.long n value = .ok m) :
    ∃ m', l'.long n value = .ok m' ∧ Without a m m' := by
  unfold Level.long at hm ⊢
  rw [h.sameFrame.command]
  split at hm
  · cases hm
  · rename_i b hb
    have hab := ha.ne_of_long? hn hb
    split at hm
    · rename_i hflag
      rw [if_pos hflag]
      split at hm
      · cases hm
      · rename_i hvalue
        rw [if_neg hvalue]
        exact h.flag hab hm
    · rename_i hflag
      rw [if_neg hflag]
      exact h.option hab hm

theorem Without.operand (ha : a.Shared name) (h : Without a l l') (hl : l.Tidy) {w : String}
    (hm : l.operand w = .ok m) : ∃ m', l'.operand w = .ok m' ∧ Without a m m' := by
  unfold Level.operand at hm ⊢
  rw [h.sameFrame.operands]
  split at hm
  · rename_i b rest hoperands
    have hab := hl.ne_of_operands ha hoperands
    split at hm
    · rename_i l₁ hsettle
      rw [h.settle hsettle]
      cases hm
      exact ⟨_, rfl, .alike (by simp [hab])⟩
    · cases hm
  · cases hm

theorem plain_of_not_waiting (h : l.isWaiting = false) (w : String) : l.plain w = l.operand w := by
  unfold plain
  split
  · rename_i b hpending
    rw [isWaiting, hpending] at h
    cases h
  · rfl

theorem Without.plain (ha : a.Shared name) (h : Without a l l') (hl : l.Tidy)
    (hfree : l.pending ≠ some (a, none)) {w : String} (hm : l.plain w = .ok m) :
    ∃ m', l'.plain w = .ok m' ∧ Without a m m' := by
  by_cases hwaiting : l.isWaiting
  · -- what waits for its value is not the option, so the two are alike
    obtain ⟨b, hpending⟩ : ∃ b, l.pending = some (b, none) := by
      unfold isWaiting at hwaiting
      split at hwaiting
      · rename_i b hpending
        exact ⟨b, hpending⟩
      · cases hwaiting
    have hab : b ≠ a := fun heq => hfree (heq ▸ hpending)
    cases h with
    | alike h =>
      have hpending' : (l.strip a).pending = some (b, none) := hpending
      rw [Level.plain, hpending] at hm
      cases hm
      refine ⟨_, ?_, .alike (by simp [hab])⟩
      rw [Level.plain, hpending']
      rfl
    | behind h hsettle => exact absurd (h b none hpending) hab
  · rw [Bool.not_eq_true] at hwaiting
    rw [plain_of_not_waiting hwaiting] at hm
    rw [plain_of_not_waiting ((h.isWaiting_eq hfree).trans hwaiting)]
    exact h.operand ha hl hm

theorem take_trailing (h : l.take b v = .ok m) :
    { l with trailing := true }.take b v = .ok { m with trailing := true } := by
  have hhas : ({ l with trailing := true } : Level).has b = l.has b := rfl
  unfold take at h ⊢
  rw [hhas]
  split at h
  · cases h
  · rename_i hfresh
    rw [if_neg hfresh]
    split at h
    · cases h
    · cases h
      rfl

theorem settle_trailing (h : l.settle = .ok m) :
    { l with trailing := true }.settle = .ok { m with trailing := true } := by
  unfold settle at h ⊢
  dsimp only
  split at h
  · rename_i hpending
    cases h
    rw [hpending]
  · cases h
  · exact take_trailing h

theorem Without.trailing (h : Without a l l') :
    Without a { l with trailing := true } { l' with trailing := true } := by
  cases h with
  | alike h => exact .alike h
  | behind h hsettle => exact .behind h (settle_trailing hsettle)

theorem takeWhile_ne_of_naming?_none (ha : a.Shared name) {w : String} {r : List Char}
    (hdashes : w.toList = '-' :: '-' :: r) (hw : naming? name w = none) :
    r.takeWhile (· ≠ '=') ≠ name.toList := by
  intro hname
  rw [naming?_of_dashes ha.plainName hdashes, if_pos hname] at hw
  cases hw

/-- **A word that does not name the option** does the same to both. -/
theorem Without.word (ha : a.Shared name) (h : Without a l l') (hl : l.Tidy)
    (hfree : l.pending ≠ some (a, none)) {w : String} (hw : naming? name w = none)
    (hm : l.word w = .ok m) : ∃ m', l'.word w = .ok m' ∧ Without a m m' := by
  unfold Level.word at hm ⊢
  rw [h.sameFrame.trailing]
  split at hm
  · rename_i htrailing
    rw [if_pos htrailing]
    exact h.operand ha hl hm
  · rename_i htrailing
    rw [if_neg htrailing]
    split at hm
    · cases hm
      exact ⟨_, rfl, h.trailing⟩
    · rename_i r hlonger hdashes
      exact h.long ha (takeWhile_ne_of_naming?_none ha hdashes hw) hm
    · exact h.shorts ha hm
    · exact h.plain ha hl hfree hm

/-- A word that names the option is its own word. -/
theorem option_of_word (ha : a.Shared name) (htrailing : l.trailing = false) {w : String}
    {value : Option String} (hword : w ≠ "--") (hw : naming? name w = some value)
    (hm : l.word w = .ok m) : l.option a value = .ok m := by
  obtain ⟨r, hr⟩ : ∃ r, w.toList = '-' :: '-' :: r := by
    by_contra hnot
    rw [naming?_of_not_dashes name fun r hr => hnot ⟨r, hr⟩] at hw
    cases hw
  have hlonger : r ≠ [] := by
    rintro rfl
    exact hword (String.toList_inj.mp hr)
  rw [naming?_of_dashes ha.plainName hr] at hw
  obtain ⟨hname, hvalue⟩ := Option.ite_none_right_eq_some.mp hw
  -- being longer than the bare `--`, the word is read as a long option
  have hlong : l.long (r.takeWhile (· ≠ '=')) (valueBehind (r.dropWhile (· ≠ '='))) = .ok m := by
    rw [word, if_neg (by simp [htrailing]), hr] at hm
    cases r with
    | nil => exact absurd rfl hlonger
    | cons c r => exact hm
  rw [long, hname, String.ofList_toList, ha.long?_eq] at hlong
  dsimp only at hlong
  rw [ha.notFlag, if_neg Bool.false_ne_true, Option.some.inj hvalue] at hlong
  exact hlong

/-- Where the option waits for its value, a word is this value, or nothing more can be read. -/
theorem word_of_pending (ha : a.Shared name) (hpending : l.pending = some (a, none)) {w : String}
    (hm : l.word w = .ok m) : m = { l with pending := some (a, some w) } ∨ m.Stuck := by
  have hwaiting : l.isWaiting ≠ false := fun h => pending_ne_of_not_waiting h hpending
  unfold word at hm
  -- Behind a bare `--` the missing value is an error. Before it a word that looks like an option
  -- settles first, and that fails too; a bare `--` leaves the value missing for good.
  split at hm
  · have hsettle : l.settle = .error (.fault .missingValue) := by rw [settle, hpending]
    rw [operand, hsettle] at hm
    split at hm <;> cases hm
  · split at hm
    · cases hm
      refine .inr ⟨?_, rfl⟩
      rw [isWaiting, hpending]
    · have hhears := long_hears ha hm
      split at hhears
      · exact absurd hhears.notWaiting hwaiting
      · exact absurd hhears.notWaiting hwaiting
    · rcases shorts_keeps ha hm with ⟨hnil, -⟩ | hkeeps
      · cases hnil
      · exact absurd hkeeps.notWaiting hwaiting
    · rw [plain, hpending] at hm
      exact .inl (Except.ok.inj hm).symm

/-- After a word that does not name the option, the option waits for nothing. -/
theorem free_of_word (ha : a.Shared name) (hl : l.Tidy) (htrailing : l.trailing = false)
    {w : String} (hword : w ≠ "--") (hw : naming? name w = none) (hm : l.word w = .ok m) :
    m.trailing = false ∧ m.pending ≠ some (a, none) := by
  have hof : Keeps a l m → m.trailing = false ∧ m.pending ≠ some (a, none) :=
    fun h => ⟨h.trailing.trans htrailing, h.notAwaited⟩
  unfold word at hm
  rw [if_neg (by simp [htrailing])] at hm
  split at hm
  · rename_i hdashes
    exact absurd (String.toList_inj.mp hdashes) hword
  · rename_i r hlonger hdashes
    have hhears := long_hears ha hm
    rw [if_neg (takeWhile_ne_of_naming?_none ha hdashes hw)] at hhears
    exact hof hhears
  · rcases shorts_keeps ha hm with ⟨hnil, -⟩ | hkeeps
    · cases hnil
    · exact hof hkeeps
  · unfold plain at hm
    split at hm
    · cases hm
      exact ⟨htrailing, by simp⟩
    · exact hof (operand_keeps ha hl hm)

/-- What is left of the words to come: nothing is left out behind a bare `--`, and the value that
the option waits for is. -/
def left (a : Argument) (name : String) (l : Level) (words : List String) : List String :=
  if l.trailing then words
  else if l.pending = some (a, none) then unsaid name words.tail
  else unsaid name words

theorem left_of_trailing (h : l.trailing) (ws : List String) : l.left a name ws = ws := if_pos h

theorem left_of_free (htrailing : l.trailing = false) (hfree : l.pending ≠ some (a, none))
    (ws : List String) : l.left a name ws = unsaid name ws := by
  rw [left, htrailing, if_neg Bool.false_ne_true, if_neg hfree]

theorem left_of_pending (htrailing : l.trailing = false) (hpending : l.pending = some (a, none))
    (ws : List String) : l.left a name ws = unsaid name ws.tail := by
  rw [left, htrailing, if_neg Bool.false_ne_true, if_pos hpending]

/-- The value of the option leaves the counterpart where it is. -/
theorem Without.heard (h : Without a l l') (hpending : l.pending = some (a, none)) (w : String) :
    Without a { l with pending := some (a, some w) } l' := by
  cases h with
  | alike h => exact absurd hpending (h none)
  | behind h hsettle =>
    refine .behind ?_ hsettle
    intro b v hb
    exact (Prod.mk.inj (Option.some.inj hb)).1.symm

/-- **What a word does to the two**, where the option waits for nothing: the same to both, or it is
a word of the option, and the counterpart does not see it. -/
theorem Without.word_left (ha : a.Shared name) (h : Without a l l') (hl : l.Tidy)
    (hfree : l.pending ≠ some (a, none)) {w : String} (hm : l.word w = .ok m) (ws : List String) :
    (∃ m', l'.word w = .ok m' ∧ Without a m m' ∧
      l.left a name (w :: ws) = w :: m.left a name ws) ∨
    Without a m l' ∧ l.left a name (w :: ws) = m.left a name ws := by
  -- Behind a bare `--` nothing is left out. Before it the word is that `--`, or a word of its own,
  -- or it names the option, and then its value comes with it or is the word behind it.
  cases htrailing : l.trailing with
  | true =>
    rw [Level.word, if_pos htrailing] at hm
    obtain ⟨m', hm', hwithout⟩ := h.operand ha hl hm
    have hstill : m.trailing := (operand_keeps ha hl hm).trailing.trans htrailing
    refine .inl ⟨m', ?_, hwithout, ?_⟩
    · rwa [Level.word, if_pos (h.sameFrame.trailing.trans htrailing)]
    · rw [left_of_trailing htrailing, left_of_trailing hstill]
  | false =>
    rw [left_of_free htrailing hfree]
    by_cases hword : w = "--"
    · subst hword
      have hdashes : ∀ l : Level, l.trailing = false →
          l.word "--" = .ok { l with trailing := true } := by
        intro l hl
        rw [Level.word, if_neg (by simp [hl])]
        rfl
      rw [hdashes l htrailing] at hm
      cases hm
      refine .inl ⟨_, hdashes l' (h.sameFrame.trailing.trans htrailing), h.trailing, ?_⟩
      rw [left_of_trailing rfl, unsaid_of_dashes]
    · cases hnaming : naming? name w with
      | none =>
        obtain ⟨m', hm', hwithout⟩ := h.word ha hl hfree hnaming hm
        obtain ⟨hstill, hfree'⟩ := free_of_word ha hl htrailing hword hnaming hm
        refine .inl ⟨m', hm', hwithout, ?_⟩
        rw [unsaid_of_naming?_none hword hnaming, left_of_free hstill hfree']
      | some value =>
        have hoption := option_of_word ha htrailing hword hnaming hm
        have hhears := option_hears hoption
        have hheard := hhears.heard
        have hstill := hhears.trailing.trans htrailing
        refine .inr ⟨h.option_self hoption, ?_⟩
        cases value with
        | some v =>
          have hfree' : m.pending ≠ some (a, none) := by
            rw [hheard.1]
            exact (Option.some_ne_none _).symm
          rw [unsaid_of_naming?_valued hword hnaming, left_of_free hstill hfree']
        | none => rw [unsaid_of_naming?_bare hword hnaming, left_of_pending hstill hheard.1]

end Level

/-! ## All levels -/

/-- A level that is stuck is the end of a reading that is not accepted. -/
theorem Level.Stuck.ne_of_readWords {l m : Level} (hl : l.Stuck) {outer mouter : List Level}
    {ws : List String} (h : readWords outer l ws = .ok (m, mouter)) : m.isWaiting := by
  cases ws with
  | nil =>
    cases h
    exact hl.1
  | cons w ws => exact absurd h (hl.readWords_ne_ok outer w ws _)

/-- A word that leads on to another command is left. -/
theorem Level.left_of_next? {l : Level} {c : Command} {w : String} {a : Argument} {name : String}
    (hfree : l.pending ≠ some (a, none)) (h : l.next? w = some c) (ws : List String) :
    l.left a name (w :: ws) = w :: (enter c).left a name ws := by
  obtain ⟨htrailing, -, hchild⟩ := next?_eq_some h
  have hnot := Command.not_dashes_of_child? hchild
  rw [left_of_free htrailing hfree,
    unsaid_of_naming?_none (ne_dashes_of_not_dashes hnot) (naming?_of_not_dashes name hnot),
    left_of_free (l := enter c) rfl nofun]

theorem readWords_of_next? {l : Level} {c : Command} {w : String} (h : l.next? w = some c)
    (hhelp : c ≠ .help) (outer : List Level) (ws : List String) :
    readWords outer l (w :: ws) = readWords (l :: outer) (.enter c) ws := by
  rw [readWords, h]
  split
  · rename_i heq
    exact absurd (Option.some.inj heq) hhelp
  · rename_i heq
    rw [Option.some.inj heq]
  · rename_i heq
    cases heq

/-- **What the words without the option are read as**: the levels without it. -/
theorem readWords_unsaid {a : Argument} {name : String} (ha : a.Shared name) {l l' m : Level}
    {outer outer' mouter : List Level} {ws : List String} (hl : l.Tidy) (h : l.Without a l')
    (houter : List.Forall₂ (Level.Without a) outer outer')
    (hread : readWords outer l ws = .ok (m, mouter)) (hend : m.isWaiting = false) :
    ∃ m' mouter', readWords outer' l' (l.left a name ws) = .ok (m', mouter') ∧ m.Without a m' ∧
      List.Forall₂ (Level.Without a) mouter mouter' := by
  -- along the words; each is read by both, or by the level with the option alone
  induction ws generalizing l l' outer outer' with
  | nil =>
    have hnil : l.left a name [] = [] := by
      unfold Level.left
      split
      · rfl
      · split <;> rfl
    rw [hnil]
    cases hread
    exact ⟨l', outer', rfl, h, houter⟩
  | cons w ws ih =>
    -- Where the option waits for its value, the next word is no word to the counterpart, whatever
    -- it looks like. Everywhere else the word itself decides.
    by_cases hpending : l.pending = some (a, none)
    · have hwaiting : l.isWaiting := by rw [Level.isWaiting, hpending]
      have htrailing : l.trailing = false := by
        refine Bool.eq_false_iff.mpr fun htrailing => ?_
        rw [Level.Stuck.ne_of_readWords ⟨hwaiting, htrailing⟩ hread] at hend
        cases hend
      have hnext : l.next? w = none := by
        rw [Level.next?, hwaiting, Bool.or_true]
        rfl
      rw [readWords, hnext] at hread
      dsimp only at hread
      split at hread
      · rename_i hword
        rcases Level.word_of_pending ha hpending hword with rfl | hstuck
        · have hrest := ih (l := { l with pending := some (a, some w) }) hl (h.heard hpending w)
            houter hread
          have hleft : Level.left a name { l with pending := some (a, some w) } ws
              = unsaid name ws :=
            Level.left_of_free (l := { l with pending := some (a, some w) }) htrailing (by simp) ws
          rw [hleft] at hrest
          rwa [Level.left_of_pending htrailing hpending]
        · rw [hstuck.ne_of_readWords hread] at hend
          cases hend
      · cases hread
    · have hnext := h.next?_eq hpending w
      rw [readWords] at hread
      split at hread
      · cases hread
      · -- another level is opened on both sides
        rename_i c hhelp hc
        rw [Level.left_of_next? hpending hc, readWords_of_next? (hnext.trans hc) hhelp]
        exact ih (Level.tidy_enter c) (Level.Without.enter a c) (.cons h houter) hread
      · rename_i hnone
        split at hread
        · rename_i l₁ hword
          rcases Level.word_final? ha hl hword ws with hstuck | ⟨htidy, -⟩
          · rw [hstuck.ne_of_readWords hread] at hend
            cases hend
          · rcases h.word_left ha hl hpending hword ws with
              ⟨l₁', hword', hwithout, hleft⟩ | ⟨hwithout, hleft⟩
            · rw [hleft, readWords, hnext, hnone]
              dsimp only
              rw [hword']
              exact ih htidy hwithout houter hread
            · -- the word named the option: only the level with it moves
              rw [hleft]
              exact ih htidy hwithout houter hread
        · cases hread

/-! ## The end of the reading -/

/-- The end of a level does not need the option. -/
theorem Level.Without.finish {a : Argument} {name : String} (ha : a.Shared name) {l l' m : Level}
    (h : l.Without a l') {standIns : List (Argument × String)} {leadsOn : Bool}
    (hm : l.finish standIns leadsOn = .ok m) (standIns' : List (Argument × String)) :
    l'.finish standIns' leadsOn = .ok (m.strip a) := by
  -- the conflict at the end is between two flags, and the option is none
  have hflag : ∀ b : Argument, b.isFlag → b ≠ a := by
    rintro b hb rfl
    rw [ha.notFlag] at hb
    cases hb
  unfold Level.finish at hm ⊢
  split at hm
  · cases hm
  · rename_i l₁ hsettle
    rw [h.settle hsettle]
    dsimp only
    rw [Level.has_strip (hflag .quiet rfl), Level.has_strip (hflag .verbose rfl)]
    split at hm
    · cases hm
    · rename_i hgroup
      refine (if_neg hgroup).trans ?_
      split at hm
      · cases hm
      · rename_i hconflict
        rw [if_neg hconflict]
        split at hm
        · cases hm
        · rename_i hoperands
          cases hm
          exact if_neg hoperands

theorem finishAll_unsaid {a : Argument} {name : String} (ha : a.Shared name)
    {outer outer' done : List Level} (h : List.Forall₂ (Level.Without a) outer outer')
    {standIns : List (Argument × String)} (hm : finishAll standIns outer = .ok done)
    (standIns' : List (Argument × String)) :
    finishAll standIns' outer' = .ok (done.map (Level.strip a)) := by
  -- level by level, the enclosing ones outwards
  induction h generalizing done with
  | nil =>
    cases hm
    rfl
  | cons hl _ ih =>
    obtain ⟨m, rest, hfinish, hrest, rfl⟩ := finishAll_cons_eq_ok_iff.mp hm
    exact finishAll_cons_eq_ok_iff.mpr
      ⟨_, _, hl.finish ha hfinish standIns', ih hrest, List.map_cons⟩

/-- **The levels of the words without the option** are the levels without it. -/
theorem readLevels_unsaid {a : Argument} {name : String} (ha : a.Shared name)
    {standIns : List (Argument × String)} {words : List String} {l : Level} {outer : List Level}
    (h : readLevels standIns words = .ok (l, outer)) (standIns' : List (Argument × String)) :
    readLevels standIns' (unsaid name words) = .ok (l.strip a, outer.map (Level.strip a)) := by
  obtain ⟨l₁, outer₁, hread, hfinish, hrest⟩ := readLevels_eq_ok_iff.mp h
  obtain ⟨l', outer', hread', hl', houter'⟩ := readWords_unsaid ha (Level.tidy_enter .top)
    (Level.Without.enter a .top) .nil hread (Level.settlesTo_finish hfinish).notWaiting
  have hleft : (Level.enter .top).left a name words = unsaid name words :=
    Level.left_of_free (l := .enter .top) rfl nofun words
  rw [hleft] at hread'
  exact readLevels_eq_ok_iff.mpr
    ⟨l', outer', hread', hl'.finish ha hfinish standIns', finishAll_unsaid ha houter' hrest standIns'⟩

/-! ## What is asked for -/

theorem Level.task?_strip_portal (l : Level) : (l.strip .portal).task? = l.task? := by
  -- A task is made of the command and of the values of other arguments.
  have hvalue : ∀ b, b ≠ .portal → (l.strip .portal).value? b = l.value? b :=
    fun b hb => Level.value?_strip hb l
  have hcommand : (l.strip .portal).command = l.command := rfl
  have hquery : (l.strip .portal).query = l.query := by
    rw [Level.query, hvalue .filter (by decide), hvalue .terms (by decide),
      hvalue .page (by decide), hvalue .sortField (by decide), hvalue .sortOrder (by decide),
      hvalue .aggregations (by decide), hvalue .bbox (by decide)]
    rfl
  have hcursor : (l.strip .portal).cursor = l.cursor := by
    rw [Level.cursor, hvalue .start (by decide), hvalue .size (by decide)]
    rfl
  have hone : ∀ b, b ≠ .portal → (l.strip .portal).value b = l.value b :=
    fun b hb => congrArg (·.getD "") (hvalue b hb)
  rw [Level.task?, hcommand, hquery, hcursor, hone .cursor (by decide), hone .key (by decide),
    hone .value (by decide), hvalue .shell (by decide)]
  rfl

theorem any_has_strip {a b : Argument} (hab : b ≠ a) (levels : List Level) :
    (levels.map (Level.strip a)).any (·.has b) = levels.any (·.has b) := by
  rw [List.any_map]
  congr 1
  funext l
  exact Level.has_strip hab l

theorem findSome?_value?_strip {a b : Argument} (hab : b ≠ a) (levels : List Level) :
    (levels.map (Level.strip a)).findSome? (·.value? b) = levels.findSome? (·.value? b) := by
  rw [List.findSome?_map]
  congr 1
  funext l
  exact Level.value?_strip hab l

theorem findSome?_value?_strip_self (a : Argument) (levels : List Level) :
    (levels.map (Level.strip a)).findSome? (·.value? a) = none := by
  rw [List.findSome?_map, List.findSome?_eq_none_iff]
  intro l _
  show (l.taken.filter (·.1 ≠ a)).lookup a = none
  rw [List.lookup_eq_none_iff]
  intro e he
  obtain ⟨-, hne⟩ := List.mem_filter.mp he
  exact bne_iff_ne.mpr (Ne.symm (of_decide_eq_true hne))

end CommandLine

/-- **The words without the portal** are accepted if the words are, in every environment that has
the same token, and they ask for the same with the portal of that environment. -/
theorem Invocation.ofWords_unsaid {e f : Environment} {words : List String} {i : Invocation}
    (h : ofWords e words = .ok i) (htoken : f.lookup "HS_TOKEN" = e.lookup "HS_TOKEN") :
    ofWords f (CommandLine.unsaid "portal" words)
      = .ok { i with portal := f.lookup "HS_PORTAL" } := by
  obtain ⟨l, outer, hlevels, hi⟩ := ofWords_eq_ok_iff.mp h
  obtain ⟨task, htask, rfl⟩ := Option.map_eq_some_iff.mp hi
  refine ofWords_eq_ok_iff.mpr ⟨_, _,
    CommandLine.readLevels_unsaid CommandLine.shared_portal hlevels (CommandLine.standIns f), ?_⟩
  -- What no level says is taken from the environment: the portal now always, the token as before.
  obtain ⟨-, htoken₁⟩ := CommandLine.lookup_standIns e
  obtain ⟨hportal₂, htoken₂⟩ := CommandLine.lookup_standIns f
  rw [CommandLine.invocation?, CommandLine.Level.task?_strip_portal, htask, ← List.map_cons]
  dsimp only
  rw [CommandLine.findSome?_value?_strip_self,
    CommandLine.findSome?_value?_strip (b := .token) (by decide), hportal₂, htoken₁, htoken₂,
    htoken]
  simp only [CommandLine.any_has_strip, ne_eq, reduceCtorEq, not_false_eq_true]
  rfl

/-- A value goes with its word, and behind a bare `--` nothing is left out. -/
example : CommandLine.unsaid "portal" ["--portal", "a", "search", "--portal=b", "--", "--portal"]
    = ["search", "--", "--portal"] := by
  decide

end ContentSearch
