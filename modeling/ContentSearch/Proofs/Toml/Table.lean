import ContentSearch.Proofs.Keyed
import ContentSearch.Toml.Table

/-!
# What plain statements add up to

Pairs of a key and a value go to the table that they stand under, one after the other, as long as
no key is there twice: to the document itself at first, and to the last header's table behind it.
Both are one and the same fold (`foldlM_pairs`), told apart by where the pairs are kept.

The keys of the pairs are single and fresh, which is all that a written document has. What the
statements of other documents add up to, or why they do not, has no part in this.
-/

set_option autoImplicit false

namespace ContentSearch.Toml

theorem addValue_fresh {k : String} {es : Entries Node} (h : es.find? k = none) (v : Node)
    (origin : Origin) : addValue k v origin es = some (es.insert k v) := by
  rw [addValue, h]
  rfl

theorem addPair_fresh {k : String} {es : Entries Node} (h : es.find? k = none) (v : Node) :
    addPair [k] v es = some (es.insert k v) :=
  addValue_fresh h v .header

namespace State

theorem add_pair {k : String} {es : Entries Node} (h : es.find? k = none) (v : Node) :
    add ⟨es, []⟩ (.pair [k] v) = some ⟨es.insert k v, []⟩ := by
  show (addPair [k] v es).map _ = _
  rw [addPair_fresh h]
  rfl

/-- A header opens a table. -/
theorem add_header {t : String} {es : Entries Node} (h : es.find? t = none) (place : List String) :
    add ⟨es, place⟩ (.header [t]) = some ⟨es.insert t (.table .header []), [t]⟩ := by
  have hheader : addHeader [t] es = some (es.insert t (.table .header [])) := by
    simp only [addHeader, List.reverse_cons, List.reverse_nil, List.nil_append, descend, h]
  show (addHeader [t] es).map _ = _
  rw [hheader]
  rfl

/-- A pair below a header goes to its table. -/
theorem add_pair_below {t k : String} {es child : Entries Node} (h : child.find? k = none)
    (v : Node) : add ⟨es.insert t (.table .header child), [t]⟩ (.pair [k] v)
      = some ⟨es.insert t (.table .header (child.insert k v)), [t]⟩ := by
  have hthere : Entries.find? t (es.insert t (.table .header child))
      = some (.table .header child) := by
    rw [Entries.find?_insert, if_pos rfl]
  have hdescend : descend false (fun _ es => addPair [k] v es) [t] .header
      (es.insert t (.table .header child))
        = some (es.insert t (.table .header (child.insert k v))) := by
    rw [descend, hthere]
    show (if Origin.header = .inline ∨ (false = true ∧ Origin.header = .header) then none
      else (addPair [k] v child).map _) = _
    rw [if_neg (by decide), addPair_fresh h, Option.map_some, Entries.insert_insert]
  show (descend false _ [t] .header _).map _ = _
  rw [hdescend]
  rfl

end State

/-- The statements of pairs. -/
def pairs (ps : Entries Node) : List Statement := ps.map fun p => .pair [p.1] p.2

/-- **Pairs add up to their entries**, in any place `f` that takes one pair after the other. -/
theorem foldlM_pairs {f : Entries Node → State}
    (hat : ∀ (es : Entries Node) (k : String) (v : Node), es.find? k = none →
      State.add (f es) (.pair [k] v) = some (f (es.insert k v)))
    {ps es : Entries Node} (hnodup : (Entries.names ps).Nodup)
    (hfresh : ∀ k ∈ Entries.names ps, es.find? k = none) :
    (pairs ps).foldlM State.add (f es) = some (f (es.insertAll ps)) := by
  induction ps generalizing es with
  | nil => rfl
  | cons p r ih =>
    obtain ⟨k, v⟩ := p
    obtain ⟨hk, hr⟩ := List.nodup_cons.mp hnodup
    have hrest : ∀ k' ∈ Entries.names r, Entries.find? k' (es.insert k v) = none := by
      intro k' hk'
      have hne : k' ≠ k := fun heq => hk (heq ▸ hk')
      rw [Entries.find?_insert, if_neg hne]
      exact hfresh k' (List.mem_cons_of_mem k hk')
    have hfirst := hat es k v (hfresh k List.mem_cons_self)
    show (State.add (f es) (.pair [k] v)).bind _ = _
    rw [hfirst, Option.bind_some]
    exact ih hr hrest

/-- **A document of pairs, a header and more pairs.** -/
theorem ofStatements?_pairs {top below : Entries Node} {t : String}
    (htop : (Entries.names top).Nodup) (hbelow : (Entries.names below).Nodup)
    (ht : t ∉ Entries.names top) :
    ofStatements? (pairs top ++ [.header [t]] ++ pairs below)
      = some ((Entries.insertAll [] top).insert t
          (.table .header (Entries.insertAll [] below))) := by
  have hnone : Entries.find? t (Entries.insertAll [] top) = none := by
    rw [Entries.find?_insertAll htop, Entries.find?_eq_none ht]
    rfl
  have hfirst : (pairs top).foldlM State.add ⟨[], []⟩ = some ⟨Entries.insertAll [] top, []⟩ :=
    foldlM_pairs (fun es k v h => State.add_pair h v) htop fun _ _ => rfl
  have hlast : (pairs below).foldlM State.add
      ⟨(Entries.insertAll [] top).insert t (.table .header []), [t]⟩
        = some ⟨(Entries.insertAll [] top).insert t
            (.table .header (Entries.insertAll [] below)), [t]⟩ :=
    foldlM_pairs (f := fun child => ⟨(Entries.insertAll [] top).insert t
      (.table .header child), [t]⟩) (fun es k v h => State.add_pair_below h v) hbelow fun _ _ => rfl
  rw [ofStatements?, List.foldlM_append, List.foldlM_append, hfirst]
  show ((State.add _ _).bind _ >>= _).map _ = _
  rw [State.add_header hnone]
  show ((pairs below).foldlM State.add _).map _ = _
  rw [hlast]
  rfl

end ContentSearch.Toml
