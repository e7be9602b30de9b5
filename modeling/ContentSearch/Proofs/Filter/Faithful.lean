import ContentSearch.Proofs.Filter.Plain

/-!
# The query as a key

Two filters that mean the same have the same query. The converse is the interesting half: two
plain filters with the same query mean the same, so the query can stand for the filter.

Reading the query gives the sentences back (`readSentences_assemble`). What is left is that a
sentence determines its field and its demand, **`Field.sentence_inj`**, and that is an argument
about words. A field with a label says it with every term, so its sentence is made of pairs and its
first word names the field. Free terms have no label; what keeps them apart from pairs is the word
between two neighbours, which stands in every second place and is no label.

For other filters the converse fails, and not only by quotes: the free term `a OR b` is written like
the two terms `a` and `b`. That both filters are plain is therefore asked of the second half alone;
the first holds of any.
-/

set_option autoImplicit false

namespace ContentSearch

/-! ## Joined lists

Lists of one length, put together with one element between neighbours. -/

section Joined

variable {α : Type} {j k : α}

/-- The lists can be told apart again, and so can what joins them, if there is a place for it. -/
theorem intercalate_inj_of_length {n : Nat} {bs : List (List α)} :
    ∀ {cs : List (List α)}, (∀ b ∈ bs, b.length = n) → (∀ c ∈ cs, c.length = n) → bs ≠ [] →
      cs ≠ [] → [j].intercalate bs = [k].intercalate cs → bs = cs ∧ (bs.length ≠ 1 → j = k) := by
  -- All pieces have one length, so the first ones of both lists end at the same place, and what
  -- joins  them to the others stands there.
  induction bs with
  | nil => intro _ _ _ hne; exact absurd rfl hne
  | cons b rest ih =>
    intro cs hb hc _ hcne h
    cases cs with
    | nil => exact absurd rfl hcne
    | cons c others =>
      have hlen : b.length = c.length := by
        rw [hb b List.mem_cons_self, hc c List.mem_cons_self]
      cases rest with
      | nil =>
        cases others with
        | nil =>
          rw [List.intercalate_singleton, List.intercalate_singleton] at h
          exact ⟨by rw [h], fun hn => absurd rfl hn⟩
        | cons c' cs =>
          have := congrArg List.length h
          simp [hlen] at this
      | cons b' bs =>
        cases others with
        | nil =>
          have := congrArg List.length h
          simp [hlen] at this
        | cons c' cs =>
          rw [List.intercalate_cons_cons, List.intercalate_cons_cons, List.append_assoc,
            List.append_assoc] at h
          obtain ⟨hbc, htail⟩ := List.append_inj h hlen
          obtain ⟨hjk, hrest⟩ := List.cons.inj htail
          obtain ⟨heq, -⟩ := ih (fun x hx => hb x (List.mem_cons_of_mem _ hx))
            (fun x hx => hc x (List.mem_cons_of_mem _ hx)) (List.cons_ne_nil _ _)
            (List.cons_ne_nil _ _) hrest
          exact ⟨by rw [hbc, heq], fun _ => hjk⟩

variable {β γ : Type}

/-- Single elements are never pairs that start with a label, since the fourth place of the one is
what joins it and the fourth place of the other is the label. -/
theorem intercalate_singles_ne_pairs {f : β → α} {a : α} {g : γ → α} (hja : j ≠ a)
    {xs : List β} {ys : List γ} (hys : ys ≠ []) :
    [j].intercalate (xs.map fun x => [f x]) ≠ [k].intercalate (ys.map fun y => [a, g y]) := by
  intro h
  match xs, ys with
  | _, [] => exact hys rfl
  | [], y :: ys => cases ys <;> simp at h
  | [x], y :: ys => cases ys <;> simp at h
  | [x, x'], y :: ys => cases ys <;> simp at h
  | x :: x' :: x'' :: xs, [y] => simp at h
  | x :: x' :: x'' :: xs, y :: y' :: ys =>
    simp only [List.map_cons, List.intercalate_cons_cons, List.intercalate_cons_cons_left,
      List.cons_append, List.nil_append, List.cons.injEq] at h
    exact hja h.2.2.2.1

theorem intercalate_singles_ne_four {f : β → α} {a b c d : α} {xs : List β} :
    [j].intercalate (xs.map fun x => [f x]) ≠ [a, b, c, d] := by
  intro h
  match xs with
  | [] => simp at h
  | [x] => simp at h
  | [x, x'] => simp at h
  | x :: x' :: x'' :: xs => cases xs <;> simp at h

end Joined

/-! ## A sentence determines its demand -/

namespace Demand

def sign : Demand → String
  | .combined op _ => op.sign
  | .between _ _ => ""

theorem sign_cases (d : Demand) : d.sign = "" ∨ d.sign = "-" := by
  cases d with
  | between low high => exact .inl rfl
  | combined op ts => cases op <;> simp [sign, Operator.sign]

end Demand

namespace Field

theorem eq_of_terms : ∀ f ∈ all, ∀ g ∈ all, f.kind = .terms → g.kind = .terms → f = g := by decide

theorem eq_of_name : ∀ f ∈ all, ∀ g ∈ all, f.name = g.name → f = g := by decide

/-- Signed labels are alike only if both the signs and the names are. -/
theorem signed_label_inj {f g : Field} (hf : f ∈ all) (hg : g ∈ all) {s t : String}
    (hs : s = "" ∨ s = "-") (ht : t = "" ∨ t = "-")
    (h : s ++ f.name ++ ":" = t ++ g.name ++ ":") : s = t ∧ f = g := by
  have hst : s ++ f.name = t ++ g.name := by simpa using h
  have hnames : (s ++ f.name).toList = (t ++ g.name).toList := by rw [hst]
  rw [String.toList_append, String.toList_append] at hnames
  have hname : f.name = g.name → f = g := eq_of_name f hf g hg
  have hf' := (bare_name f hf).2
  have hg' := (bare_name g hg).2
  -- no name begins with a dash, so a dash in front is the sign
  rcases hs with rfl | rfl <;> rcases ht with rfl | rfl
  · exact ⟨rfl, hname (by simpa using hst)⟩
  · exact absurd (by rw [show f.name.toList = '-' :: g.name.toList from hnames]; rfl) hf'
  · exact absurd (by rw [show g.name.toList = '-' :: f.name.toList from hnames.symm]; rfl) hg'
  · refine ⟨rfl, hname (String.toList_inj.mp ?_)⟩
    exact (List.cons.inj hnames).2

theorem termWords_of_terms {f : Field} (hk : f.kind = .terms) (op : Operator) :
    f.termWords op = fun t => [op.sign ++ t] :=
  funext fun _ => if_pos hk

theorem termWords_of_label {f : Field} (hk : f.kind ≠ .terms) (op : Operator) :
    f.termWords op = fun t => [op.sign ++ f.name ++ ":", f.spell t] :=
  funext fun _ => if_neg hk

theorem head_sentence {f : Field} (hk : f.kind ≠ .terms) {d : Demand} (h : f.Sayable d) :
    (f.sentence d).head? = some (d.sign ++ f.name ++ ":") := by
  cases d with
  | between low high => simp [sentence, Demand.sign]
  | combined op ts =>
    cases ts with
    | nil => exact absurd rfl h.2.1
    | cons t rest => cases rest <;> simp [sentence, termWords, hk, Demand.sign]

theorem word_ne_label (op : Operator) (s : String) : op.word ≠ s ++ ":" := by
  intro h
  have hlast : op.word.toList.getLast? = some ':' := by
    rw [h, String.toList_append]
    simp
  cases op <;> exact absurd hlast (by decide)

/-- Free terms are not said like anything that has a label. -/
theorem sentence_ne_of_terms {f g : Field} (hf : f.kind = .terms) (hg : g.kind ≠ .terms)
    {d e : Demand} (hd : f.Sayable d) (he : g.Sayable e) : f.sentence d ≠ g.sentence e := by
  -- the one is made of single words; the other of pairs, or of the four words of a range
  cases d with
  | between low high => exact absurd (hf ▸ hd : FieldKind.terms = .range) (by decide)
  | combined op ts =>
    rw [sentence, termWords_of_terms hf]
    cases e with
    | between low high => exact intercalate_singles_ne_four
    | combined op' us =>
      rw [sentence, termWords_of_label hg]
      exact intercalate_singles_ne_pairs (word_ne_label op _) he.2.1

theorem spell_injective {f : Field} {t u : String} (h : f.spell t = f.spell u) : t = u := by
  unfold spell at h
  split at h
  · simpa using h
  · exact h

theorem termWords_injective {f : Field} {op : Operator} {t u : String}
    (h : f.termWords op t = f.termWords op u) : t = u := by
  by_cases hk : f.kind = .terms
  · rw [termWords_of_terms hk] at h
    simpa using h
  · rw [termWords_of_label hk] at h
    exact spell_injective (by simpa using h)

/-- They also show its sign: an admitted free term does not begin like an excluded one. -/
theorem sign_eq_of_termWords_eq {f : Field} {op op' : Operator} {t u : String}
    (ht : f.Admits t) (hu : f.Admits u) (h : f.termWords op t = f.termWords op' u) :
    op.sign = op'.sign := by
  have hs : op.sign = "" ∨ op.sign = "-" := (Demand.combined op []).sign_cases
  have hs' : op'.sign = "" ∨ op'.sign = "-" := (Demand.combined op' []).sign_cases
  -- a free term follows its sign in the same word, every other one follows its label
  by_cases hk : f.kind = .terms
  · rw [termWords_of_terms hk, termWords_of_terms hk] at h
    have hlists : op.sign.toList ++ t.toList = op'.sign.toList ++ u.toList := by
      rw [← String.toList_append, ← String.toList_append, List.singleton_inj.mp h]
    rcases hs with hs | hs <;> rcases hs' with hs' | hs'
    · rw [hs, hs']
    · rw [hs, hs'] at hlists
      exact absurd (by rw [show t.toList = '-' :: u.toList from hlists]; rfl) (ht.2.2 hk)
    · rw [hs, hs'] at hlists
      exact absurd (by rw [show u.toList = '-' :: t.toList from hlists.symm]; rfl) (hu.2.2 hk)
    · rw [hs, hs']
  · rw [termWords_of_label hk, termWords_of_label hk] at h
    simpa using (List.cons.inj h).1

theorem termWords_congr (f : Field) {op op' : Operator} (h : op.sign = op'.sign) :
    f.termWords op = f.termWords op' := by
  funext t
  unfold termWords
  rw [h]

theorem length_termWords (f : Field) (op : Operator) (ts : List String) :
    ∀ b ∈ ts.map (f.termWords op), b.length = if f.kind = .terms then 1 else 2 := by
  intro b hb
  obtain ⟨t, -, rfl⟩ := List.mem_map.mp hb
  unfold termWords
  split <;> rfl

end Field

/-- Sign and word together leave one operator, except that a lone term hides its word. -/
theorem Operator.eq_of_sign_of_word {op op' : Operator} {n : Nat} (hs : op.sign = op'.sign)
    (hw : n ≠ 1 → op.word = op'.word) (h : op = .and → n ≠ 1) (h' : op' = .and → n ≠ 1) :
    op = op' := by
  cases op <;> cases op' <;> simp_all [Operator.sign, Operator.word]

namespace Field

theorem demand_eq_of_sentence_eq {f : Field} {d e : Demand} (hd : f.Sayable d) (he : f.Sayable e)
    (h : f.sentence d = f.sentence e) : d = e := by
  -- a range and terms are never both sayable on one field
  cases d with
  | between low high =>
    cases e with
    | combined op' us => exact absurd hd he.1
    | between low' high' =>
      simp only [sentence, List.cons.injEq, String.append_right_inj, String.append_left_inj,
        String.ofList_inj, and_true, true_and] at h
      rw [Text.Decimal.writeInt_injective h.1, Text.Decimal.writeInt_injective h.2]
  | combined op ts =>
    cases e with
    | between low' high' => exact absurd he hd.1
    | combined op' us =>
      obtain ⟨-, htne, hand, hts⟩ := hd
      obtain ⟨-, hune, hand', hus⟩ := he
      -- both sentences are cut into words of one length, so they have the same pieces and the same
      -- joiner
      obtain ⟨hmap, hword⟩ := intercalate_inj_of_length (f.length_termWords op ts)
        (f.length_termWords op' us) (by simpa using htne) (by simpa using hune) h
      have hlen : ts.length = us.length := by simpa using congrArg List.length hmap
      have hsign : op.sign = op'.sign := by
        cases ts with
        | nil => exact absurd rfl htne
        | cons t ts =>
          cases us with
          | nil => exact absurd rfl hune
          | cons u us =>
            exact sign_eq_of_termWords_eq (hts t List.mem_cons_self).2
              (hus u List.mem_cons_self).2 (List.cons.inj hmap).1
      have hop : op = op' := Operator.eq_of_sign_of_word (n := ts.length) hsign
        (by simpa using hword) hand (hlen ▸ hand')
      rw [← f.termWords_congr hsign] at hmap
      rw [hop, List.map_injective_iff.mpr (fun _ _ => termWords_injective) hmap]

/-- **A sentence determines its field and its demand.** -/
theorem sentence_inj {f g : Field} (hf : f ∈ all) (hg : g ∈ all) {d e : Demand} (hd : f.Sayable d)
    (he : g.Sayable e) (h : f.sentence d = g.sentence e) : f = g ∧ d = e := by
  -- the free field is told by the shape of its sentence, and the others by their first words
  have hfield : f = g := by
    by_cases hkf : f.kind = .terms <;> by_cases hkg : g.kind = .terms
    · exact eq_of_terms f hf g hg hkf hkg
    · exact absurd h (sentence_ne_of_terms hkf hkg hd he)
    · exact absurd h.symm (sentence_ne_of_terms hkg hkf he hd)
    · have hhead := head_sentence hkf hd
      rw [h, head_sentence hkg he, Option.some.injEq] at hhead
      exact (signed_label_inj hg hf e.sign_cases d.sign_cases hhead).2.symm
  subst hfield
  exact ⟨rfl, demand_eq_of_sentence_eq hd he h⟩

end Field

/-! ## A query determines its meaning -/

/-- What is written for each entry of a list, where nothing may be written, shows what it was
written for, if no two entries have a text in common. -/
theorem eq_of_filterMap_eq {α β γ : Type} {w : α → β → γ} {m m' : α → Option β} {l : List α}
    (hl : l.Nodup)
    (hw : ∀ a ∈ l, ∀ b ∈ l, ∀ x ∈ m a, ∀ y ∈ m' b, w a x = w b y → a = b ∧ x = y)
    (h : l.filterMap (fun a => (m a).map (w a)) = l.filterMap fun a => (m' a).map (w a)) :
    ∀ a ∈ l, m a = m' a := by
  -- Along the list. Where only one side writes something for the first entry, the other side writes
  -- it for a later one, which would have to be the same entry.
  induction l with
  | nil => intro a ha; exact absurd ha (by simp)
  | cons a rest ih =>
    obtain ⟨hnot, hrest⟩ := List.nodup_cons.mp hl
    have ih' := ih hrest fun b hb c hc =>
      hw b (List.mem_cons_of_mem _ hb) c (List.mem_cons_of_mem _ hc)
    cases hx : m a with
    | none =>
      cases hy : m' a with
      | none =>
        simp only [List.filterMap_cons, hx, hy, Option.map_none] at h
        intro b hb
        rcases List.mem_cons.mp hb with rfl | hb
        · rw [hx, hy]
        · exact ih' h b hb
      | some y =>
        -- the first text on the right belongs to a later entry on the left
        simp only [List.filterMap_cons, hx, hy, Option.map_none, Option.map_some] at h
        obtain ⟨b, hb, hbx⟩ := List.mem_filterMap.mp (h ▸ List.mem_cons_self)
        obtain ⟨x, hmx, hxy⟩ := Option.map_eq_some_iff.mp hbx
        obtain ⟨rfl, -⟩ := hw b (List.mem_cons_of_mem _ hb) a List.mem_cons_self x hmx y hy hxy
        exact absurd hb hnot
    | some x =>
      cases hy : m' a with
      | none =>
        simp only [List.filterMap_cons, hx, hy, Option.map_none, Option.map_some] at h
        obtain ⟨b, hb, hby⟩ := List.mem_filterMap.mp (h.symm ▸ List.mem_cons_self)
        obtain ⟨y, hmy, hyx⟩ := Option.map_eq_some_iff.mp hby
        obtain ⟨rfl, -⟩ := hw a List.mem_cons_self b (List.mem_cons_of_mem _ hb) x hx y hmy hyx.symm
        exact absurd hb hnot
      | some y =>
        simp only [List.filterMap_cons, hx, hy, Option.map_some] at h
        obtain ⟨hhead, htail⟩ := List.cons.inj h
        obtain ⟨-, hxy⟩ := hw a List.mem_cons_self a List.mem_cons_self x hx y hy hhead
        intro b hb
        rcases List.mem_cons.mp hb with rfl | hb
        · rw [hx, hy, hxy]
        · exact ih' htail b hb

namespace Filter

theorem readable_exclusionWords : Readable exclusionWords := by
  refine ⟨List.cons_ne_nil _ _, fun w hw => ?_⟩
  simp only [exclusionWords, List.mem_cons, List.not_mem_nil, or_false] at hw
  rcases hw with rfl | rfl
  · exact Bare.isWord (by decide)
  · exact IsWord.quote (s := "code attachment") (by decide)

theorem Plain.readable {f : Filter} (hf : f.Plain) :
    ∀ ws ∈ f.sentences ++ [exclusionWords], Readable ws := by
  intro ws hws
  rcases List.mem_append.mp hws with hws | hws
  · obtain ⟨field, hmem, hsome⟩ := List.mem_filterMap.mp hws
    obtain ⟨d, hd, rfl⟩ := Option.map_eq_some_iff.mp hsome
    exact Field.readable_sentence hmem (hf.sayable hmem hd)
  · rw [List.mem_singleton.mp hws]
    exact readable_exclusionWords

theorem sentences_eq_of_toQuery_eq {f g : Filter} (hf : f.Plain) (hg : g.Plain)
    (h : f.toQuery = g.toQuery) : f.sentences = g.sentences := by
  have hread : ∀ {e : Filter}, e.Plain →
      readSentences e.toQuery.toList = e.sentences ++ [exclusionWords] := fun he => by
    rw [toQuery_eq_assemble]
    exact readSentences_assemble (by simp) he.readable
  have happ : f.sentences ++ [exclusionWords] = g.sentences ++ [exclusionWords] := by
    rw [← hread hf, ← hread hg, h]
  exact List.append_cancel_right happ

/-- **The query is a faithful key for the meaning.** Filters that ask for the same have one query,
whatever strings they hold; and of plain filters only those have one query that ask for the
same. -/
theorem toQuery_eq_iff_meaning_eq :
    (∀ f g : Filter, f.meaning = g.meaning → f.toQuery = g.toQuery) ∧
      ∀ f g : Filter, f.Plain → g.Plain → f.toQuery = g.toQuery → f.meaning = g.meaning := by
  constructor
  · intro f g h
    rw [toQuery_eq_assemble, toQuery_eq_assemble, sentences_congr h]
  · intro f g hf hg h
    have hsentences := sentences_eq_of_toQuery_eq hf hg h
    refine List.map_congr_left (eq_of_filterMap_eq (by decide) ?_ hsentences)
    intro a ha b hb d hd e he hde
    exact Field.sentence_inj ha hb (hf.sayable ha hd) (hg.sayable hb he) hde

/-- A lone owner under `and`, with an empty one beside it, is the owner said plainly; the quoted
title spells the language around it and the field that is none says nothing. -/
theorem toQuery_eq_iff_meaning_eq_sample :
    let f := ofList [("owner", .scalar "me"), ("title", .list ["a) AND (b", "c"])]
    let g := ofList [("title", .grouped .or ["a) AND (b", "", "c"]), ("colour", .scalar "red"),
      ("owner", .grouped .and ["", "me"])]
    f.toQuery = g.toQuery ∧ f.meaning = g.meaning := by
  intro f g
  have hquery : f.toQuery = g.toQuery := toQuery_eq_iff_meaning_eq.1 f g (by decide)
  exact ⟨hquery, toQuery_eq_iff_meaning_eq.2 f g (by decide) (by decide) hquery⟩

end Filter
end ContentSearch
