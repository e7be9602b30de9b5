import ContentSearch.Proofs.Filter.Demand
import ContentSearch.Proofs.Text.Quotation

/-!
# Reading a query

The query language has no escapes, so it can be read only where its words are *closed*: no blank
and no closing parenthesis outside quotes, and no quote left open. Among such words there is one
reading. Every clause ends at the first closing parenthesis outside quotes, and inside it every
word ends at the first blank outside quotes, whatever the quoted strings hold; a string may well
spell `) AND (` and end nothing.

**`readSentences_assemble`** says so: the reader gives back the sentences that a query was put
together from.

The reader below is not part of the program. It is the other side: what a portal that knows the
query language can make of a query.
-/

set_option autoImplicit false

namespace ContentSearch

open Text

/-- A word that neither a blank nor a closing parenthesis can end too early. -/
def IsWord (w : String) : Prop := Closed ' ' false w.toList ∧ Closed ')' false w.toList

/-- A sentence of such words. -/
def Readable (ws : List String) : Prop := ws ≠ [] ∧ ∀ w ∈ ws, IsWord w

def sentenceText (ws : List String) : List Char := [' '].intercalate (ws.map String.toList)

def readWords (s : List Char) : List String := (piecesOutside ' ' false s).map String.ofList

/-- **The reader.** The first clause is behind its parenthesis, the others are behind an `AND` and
theirs, and behind the last one there is nothing. -/
def readSentences (s : List Char) : List (List String) :=
  match piecesOutside ')' false s with
  | [] => []
  | p :: ps => readWords (p.drop 1) :: ps.dropLast.map fun q => readWords (q.drop 6)

theorem readWords_sentenceText {ws : List String} (h : Readable ws) :
    readWords (sentenceText ws) = ws := by
  have hpieces : piecesOutside ' ' false (sentenceText ws) = ws.map String.toList := by
    refine piecesOutside_intercalate (by simpa using h.1) fun w hw => ?_
    obtain ⟨v, hv, rfl⟩ := List.mem_map.mp hw
    exact (h.2 v hv).1
  rw [readWords, hpieces, List.map_map]
  simp

theorem closed_sentenceText {ws : List String} (h : Readable ws) :
    Closed ')' false (sentenceText ws) := by
  have hblank : Closed ')' false [' '] := Closed.of_bare (by decide)
  refine hblank.intercalate fun w hw => ?_
  obtain ⟨v, hv, rfl⟩ := List.mem_map.mp hw
  exact (h.2 v hv).2

theorem toList_clause (ws : List String) :
    ("(" ++ " ".intercalate ws ++ ")").toList = '(' :: (sentenceText ws ++ [')']) := by
  rw [String.toList_append, String.toList_append, String.toList_intercalate]
  rfl

theorem toList_assemble_singleton (ws : List String) :
    (assemble [ws]).toList = '(' :: (sentenceText ws ++ [')']) := by
  rw [← toList_clause]
  rfl

theorem toList_assemble_cons_cons (ws vs : List String) (rest : List (List String)) :
    (assemble (ws :: vs :: rest)).toList
      = '(' :: (sentenceText ws ++ ')' :: (" AND ".toList ++ (assemble (vs :: rest)).toList)) := by
  unfold assemble
  rw [List.map_cons, List.map_cons, String.intercalate_cons_cons, String.toList_append,
    String.toList_append, toList_clause]
  simp only [List.cons_append, List.append_assoc, List.nil_append]

/-- The pieces between closing parentheses. What stands in front of a clause goes with it, which is
what the induction needs: behind the first clause that is an `AND`. -/
theorem piecesOutside_assemble (rest : List (List String)) :
    ∀ (front : List Char) (ws : List String), Closed ')' false front →
      (∀ v ∈ ws :: rest, Readable v) →
      piecesOutside ')' false (front ++ (assemble (ws :: rest)).toList)
        = (front ++ '(' :: sentenceText ws)
            :: (rest.map fun v => " AND (".toList ++ sentenceText v) ++ [[]] := by
  -- along the clauses behind the first; each ends at its own closing parenthesis
  induction rest with
  | nil =>
    intro front ws hfront h
    have hopen : Closed ')' false ['('] := Closed.of_bare (by decide)
    have hws := closed_sentenceText (h ws List.mem_cons_self)
    have hpiece : Closed ')' false (front ++ ['('] ++ sentenceText ws) :=
      hws.append (hopen.append hfront)
    rw [toList_assemble_singleton]
    have := piecesOutside_append_cons [] hpiece
    simpa [piecesOutside] using this
  | cons vs rest ih =>
    intro front ws hfront h
    have hopen : Closed ')' false ['('] := Closed.of_bare (by decide)
    have hws := closed_sentenceText (h ws List.mem_cons_self)
    have hpiece : Closed ')' false (front ++ ['('] ++ sentenceText ws) :=
      hws.append (hopen.append hfront)
    have hand : Closed ')' false " AND ".toList := Closed.of_bare (by decide)
    have hrest := ih _ vs hand fun v hv => h v (List.mem_cons_of_mem _ hv)
    rw [toList_assemble_cons_cons]
    have := piecesOutside_append_cons (" AND ".toList ++ (assemble (vs :: rest)).toList) hpiece
    rw [hrest] at this
    simpa using this

/-- **A query is read as the sentences it was put together from.** -/
theorem readSentences_assemble {ss : List (List String)} (hne : ss ≠ [])
    (h : ∀ ws ∈ ss, Readable ws) : readSentences (assemble ss).toList = ss := by
  cases ss with
  | nil => exact absurd rfl hne
  | cons ws rest =>
    have hpieces := piecesOutside_assemble rest [] ws rfl h
    rw [List.nil_append, List.nil_append] at hpieces
    unfold readSentences
    rw [hpieces]
    have hfirst : readWords (sentenceText ws) = ws :=
      readWords_sentenceText (h ws List.mem_cons_self)
    have hothers : ∀ v ∈ rest, readWords (sentenceText v) = v := fun v hv =>
      readWords_sentenceText (h v (List.mem_cons_of_mem _ hv))
    simp only [List.cons_append, List.dropLast_concat, List.map_map, List.drop_succ_cons,
      List.drop_zero, hfirst]
    congr 1
    conv => rhs; rw [← List.map_id rest]
    refine List.map_congr_left fun v hv => ?_
    have hdrop : (" AND (".toList ++ sentenceText v).drop 6 = sentenceText v := rfl
    rw [Function.comp_apply, hdrop, hothers v hv, id]

end ContentSearch
