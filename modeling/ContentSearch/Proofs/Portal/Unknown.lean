import ContentSearch.Proofs.Json.Members
import ContentSearch.Proofs.Portal.Arrival
import ContentSearch.Proofs.Portal.PageBody
import Mathlib

/-!
# Members that a portal may add

Portals grow, and their answers with them. A client that knows nothing of the new members must come
to the verdict that it came to before, be it a page, an error, the advice to retry or that the body
cannot be read. So it does (**`Answer.verdict_of_revised`**): members with names that are not looked
up may be added anywhere in the body and in the error that it reports, and the members of both may
be put in another order.

Whether a body can be read is a matter of all of its members, and so an added one has to be readable
too. What the body says is a matter of the last members under the names that are looked up, and none
of these changes (`SameUnder`). The error is the one name under which something may change, as long
as the complaint that it is read as does not (`SameSense`).

One small change at a time is enough. A revision adds one member, moves members past each other, or
changes the error by one such step, and what any number of them does is an induction over the steps
with the same verdict at each.
-/

set_option autoImplicit false

namespace ContentSearch

open Json (Value Document)

/-! ## Changes to members -/

/-- A change to the members of an object of which only the known names are looked up: another member
under a name that is not, or all members in another order. -/
inductive Unnoticed (known : List String) (room : Nat) :
    List (Option String × Document) → List (Option String × Document) → Prop
  | inserted {before after : List (Option String × Document)} {k : String} {d : Document}
      (hk : k ∉ known) (hd : (d.toValue? room).isSome) :
      Unnoticed known room (before ++ after) (before ++ (some k, d) :: after)
  | reordered {members members' : List (Option String × Document)}
      (hnodup : (members.map Prod.fst).Nodup) (h : members.Perm members') :
      Unnoticed known room members members'

/-- The one can be read if the other can, and under each known name there is the same. -/
structure SameUnder (known : List String) (room : Nat)
    (members members' : List (Option String × Document)) : Prop where
  readable : (∀ m ∈ members, m.1.isSome ∧ (m.2.toValue? room).isSome) ↔
    ∀ m ∈ members', m.1.isSome ∧ (m.2.toValue? room).isSome
  last : ∀ k ∈ known, Entries.last? (some k) members = Entries.last? (some k) members'

section
variable {known : List String} {room : Nat} {members members' : List (Option String × Document)}

theorem Unnoticed.sameUnder (h : Unnoticed known room members members') :
    SameUnder known room members members' := by
  -- Another member is last under its own name only. In another order the members are the same, and
  -- each is the only one of its name.
  cases h with
  | @inserted before after k d hk hd =>
    refine ⟨?_, fun k' hk' => ?_⟩
    · simp only [List.forall_mem_append, List.forall_mem_cons, hd, Option.isSome_some, and_self,
        true_and]
    · have hne : (some k' : Option String) ≠ some k := fun heq => hk (Option.some.inj heq ▸ hk')
      rw [Entries.last?_append, Entries.last?_append, Entries.last?_cons, if_neg hne,
        Option.or_none]
  | reordered hnodup h =>
    refine ⟨?_, fun k _ => (Entries.Reordered.of_perm hnodup h).last?_eq (some k)⟩
    exact ⟨fun hall m hm => hall m (h.mem_iff.mpr hm), fun hall m hm => hall m (h.mem_iff.mp hm)⟩

/-- Objects of which each can be read if the other can. -/
theorem isSome_toValue?_congr
    (h : (∀ m ∈ members, m.1.isSome ∧ (m.2.toValue? room).isSome) ↔
      ∀ m ∈ members', m.1.isSome ∧ (m.2.toValue? room).isSome) :
    (Document.toValue? (room + 1) (.object members)).isSome ↔
      (Document.toValue? (room + 1) (.object members')).isSome := by
  simp only [Document.toValue?_object, Option.isSome_map, Document.isSome_toMembers?_iff]
  exact h

end

/-! ## Complaints -/

theorem Complaint.ofJson?_congr {es es' : Entries Value}
    (h : ∀ k ∈ fieldNames, es.find? k = es'.find? k) :
    ofJson? (.object es) = ofJson? (.object es') := by
  have hfind : ∀ k ∈ fieldNames, Entries.find? k (es.filter fun e => e.1 ∈ fieldNames)
      = Entries.find? k (es'.filter fun e => e.1 ∈ fieldNames) := fun k hk => by
    rw [Entries.find?_filter hk, Entries.find?_filter hk, h k hk]
  show ofFields? (es.filter fun e => e.1 ∈ fieldNames)
    = ofFields? (es'.filter fun e => e.1 ∈ fieldNames)
  unfold ofFields? Json.requiredField? Json.field?
  rw [hfind "code" (by decide), hfind "message" (by decide)]

/-- What a document is read as where an error is looked for: nothing if it cannot be read, and
perhaps a complaint if it can. -/
def complaint? (d : Document) : Option (Option Complaint) :=
  (d.toValue? (Json.maxDepth - 1)).map Complaint.ofJson?

theorem SameUnder.complaint?_eq {members members' : List (Option String × Document)}
    (h : SameUnder Complaint.fieldNames (Json.maxDepth - 2) members members') :
    complaint? (.object members) = complaint? (.object members') := by
  have hdepth : Json.maxDepth - 1 = Json.maxDepth - 2 + 1 := rfl
  have hsome := isSome_toValue?_congr h.readable
  rw [complaint?, complaint?, hdepth]
  -- One of the two can be read if the other can, and then the known fields are the same in both.
  cases hv : Document.toValue? (Json.maxDepth - 2 + 1) (.object members) with
  | none =>
    rw [hv] at hsome
    rw [Option.not_isSome_iff_eq_none.mp (hsome.not.mp nofun)]
  | some v =>
    rw [hv] at hsome
    obtain ⟨v', hv'⟩ := Option.isSome_iff_exists.mp (hsome.mp rfl)
    obtain ⟨es, rfl, -, hes⟩ := Document.find?_of_toValue? hv
    obtain ⟨es', rfl, -, hes'⟩ := Document.find?_of_toValue? hv'
    have hfind : ∀ k ∈ Complaint.fieldNames, es.find? k = es'.find? k := fun k hk => by
      rw [hes, hes', h.last k hk]
    rw [hv', Option.map_some, Option.map_some, Complaint.ofJson?_congr hfind]

/-! ## Bodies -/

/-- Two bodies of which each can be read if the other can, with the same fields of a page in them
and the same complaint. -/
structure SameSense (members members' : List (Option String × Document)) : Prop where
  readable : (∀ m ∈ members, m.1.isSome ∧ (m.2.toValue? (Json.maxDepth - 1)).isSome) ↔
    ∀ m ∈ members', m.1.isSome ∧ (m.2.toValue? (Json.maxDepth - 1)).isSome
  page : ∀ k ∈ Page.fieldNames,
    Entries.last? (some k) members = Entries.last? (some k) members'
  error : (Entries.last? (some "error") members).bind complaint?
    = (Entries.last? (some "error") members').bind complaint?

theorem SameUnder.sameSense {members members' : List (Option String × Document)}
    (h : SameUnder ("error" :: Page.fieldNames) (Json.maxDepth - 1) members members') :
    SameSense members members' where
  readable := h.readable
  page k hk := h.last k (List.mem_cons_of_mem _ hk)
  error := by rw [h.last "error" List.mem_cons_self]

/-- An error with another value that is read as the same complaint. -/
theorem SameSense.of_complaint? {d d' : Document} (h : complaint? d = complaint? d')
    (before after : List (Option String × Document)) :
    SameSense (before ++ (some "error", d) :: after) (before ++ (some "error", d') :: after) where
  readable := by
    have hsome : (d.toValue? (Json.maxDepth - 1)).isSome
        ↔ (d'.toValue? (Json.maxDepth - 1)).isSome := by
      have hmap := congrArg Option.isSome h
      rw [complaint?, complaint?, Option.isSome_map, Option.isSome_map] at hmap
      rw [hmap]
    simp only [List.forall_mem_append, List.forall_mem_cons, hsome]
  page k hk := by
    -- no field of a page is called the error
    have hne : (some k : Option String) ≠ some "error" := fun heq =>
      absurd (Option.some.inj heq ▸ hk : "error" ∈ Page.fieldNames) (by decide)
    simp only [Entries.last?_append, Entries.last?_cons, if_neg hne]
  error := by
    simp only [Entries.last?_append, Entries.last?_cons, if_pos]
    cases Entries.last? (some "error") after with
    | none => exact h
    | some e => rfl

namespace Answer

/-- A verdict looks at the complaint and at the page, and at nothing else. -/
theorem judgeValue_congr {v v' : Value}
    (hcomplaint : (v.get? "error").map Complaint.ofJson? = (v'.get? "error").map Complaint.ofJson?)
    (hpage : Page.ofJson? v = Page.ofJson? v') (retryAfter : Option Nat) (mayRetry : Bool) :
    judgeValue v retryAfter mayRetry = judgeValue v' retryAfter mayRetry := by
  unfold judgeValue
  rw [hpage]
  generalize v.get? "error" = e, v'.get? "error" = e' at hcomplaint
  -- with an error on one side there is one on the other, and both are read as the same complaint
  cases e with
  | none =>
    cases e' with
    | none => rfl
    | some e' => cases hcomplaint
  | some e =>
    cases e' with
    | none => cases hcomplaint
    | some e' =>
      dsimp only
      rw [Option.some.inj hcomplaint]

/-- The verdict on a body of an answer that claims success. -/
def judgeDocument (d : Document) (retryAfter : Option Nat) (mayRetry : Bool) :
    Except SearchError Verdict :=
  match d.toValue? Json.maxDepth with
  | some v => judgeValue v retryAfter mayRetry
  | none => .error .unreadable

theorem verdict_of_success {a : Answer} (hsuccess : a.isSuccess) {d : Document}
    (hd : Document.parse? a.text = some d) (attempt most : Nat) :
    a.verdict attempt most = judgeDocument d a.retrySeconds (attempt < most) := by
  unfold verdict judgeDocument
  rw [if_pos hsuccess, Value.parse?, Value.read?, ← Document.parse?, hd]
  rfl

theorem judgeDocument_congr {members members' : List (Option String × Document)}
    (h : SameSense members members') (retryAfter : Option Nat) (mayRetry : Bool) :
    judgeDocument (.object members) retryAfter mayRetry
      = judgeDocument (.object members') retryAfter mayRetry := by
  have hdepth : Json.maxDepth = Json.maxDepth - 1 + 1 := rfl
  have hsome := isSome_toValue?_congr h.readable
  rw [judgeDocument, judgeDocument, hdepth]
  -- Either both documents have a value or neither has, and then they are asked for the same names.
  cases hv : Document.toValue? (Json.maxDepth - 1 + 1) (.object members) with
  | none =>
    rw [hv] at hsome
    rw [Option.not_isSome_iff_eq_none.mp (hsome.not.mp nofun)]
  | some v =>
    rw [hv] at hsome
    obtain ⟨v', hv'⟩ := Option.isSome_iff_exists.mp (hsome.mp rfl)
    obtain ⟨es, rfl, -, hes⟩ := Document.find?_of_toValue? hv
    obtain ⟨es', rfl, -, hes'⟩ := Document.find?_of_toValue? hv'
    have hpage : Page.ofJson? (.object es) = Page.ofJson? (.object es') := by
      refine Option.ext fun p => ?_
      rw [Page.ofJson?_object_iff, Page.ofJson?_object_iff]
      exact Page.ReadFrom.congr fun k hk => by rw [hes, hes', h.page k hk]
    have hcomplaint : ((Value.object es).get? "error").map Complaint.ofJson?
        = ((Value.object es').get? "error").map Complaint.ofJson? := by
      show (es.find? "error").map _ = (es'.find? "error").map _
      rw [hes, hes', Option.map_bind, Option.map_bind]
      exact h.error
    rw [hv']
    exact judgeValue_congr hcomplaint hpage retryAfter mayRetry

end Answer

/-! ## Revised bodies -/

/-- A body that a portal may come to answer with instead of another one: its members are changed
where nobody looks, or those of the error that it reports. -/
inductive Revision : Document → Document → Prop
  | top {members members' : List (Option String × Document)}
      (h : Unnoticed ("error" :: Page.fieldNames) (Json.maxDepth - 1) members members') :
      Revision (.object members) (.object members')
  | error {before after members members' : List (Option String × Document)}
      (h : Unnoticed Complaint.fieldNames (Json.maxDepth - 2) members members') :
      Revision (.object (before ++ (some "error", .object members) :: after))
        (.object (before ++ (some "error", .object members') :: after))

theorem Revision.judgeDocument_eq {d d' : Document} (h : Revision d d') (retryAfter : Option Nat)
    (mayRetry : Bool) :
    Answer.judgeDocument d retryAfter mayRetry = Answer.judgeDocument d' retryAfter mayRetry := by
  cases h with
  | top h => exact Answer.judgeDocument_congr h.sameUnder.sameSense retryAfter mayRetry
  | @error before after _ _ h =>
    have hsense := SameSense.of_complaint? h.sameUnder.complaint?_eq before after
    exact Answer.judgeDocument_congr hsense retryAfter mayRetry

/-- One revision after the other. -/
theorem judgeDocument_of_revised {d d' : Document} (h : Relation.ReflTransGen Revision d d')
    (retryAfter : Option Nat) (mayRetry : Bool) :
    Answer.judgeDocument d retryAfter mayRetry = Answer.judgeDocument d' retryAfter mayRetry := by
  -- along the revisions
  induction h with
  | refl => rfl
  | tail _ hlast ih => exact ih.trans (hlast.judgeDocument_eq retryAfter mayRetry)

namespace Answer

/-- **Members that nobody looks up are harmless.** Two successful answers with the same header, the
body of one revised into that of the other in any number of steps, have the same verdict at every
attempt. -/
theorem verdict_of_revised {a a' : Answer} (hsuccess : 200 ≤ a.status ∧ a.status ≤ 299)
    (hstatus : a'.status = a.status) (hheader : a'.retryAfter = a.retryAfter) {d d' : Document}
    (hd : Document.parse? a.text = some d) (hd' : Document.parse? a'.text = some d')
    (h : Relation.ReflTransGen Revision d d') (attempt most : Nat) :
    a.verdict attempt most = a'.verdict attempt most := by
  have hseconds : a'.retrySeconds = a.retrySeconds := by
    unfold retrySeconds
    rw [hheader]
  have hsuccess' : 200 ≤ a'.status ∧ a'.status ≤ 299 := by rwa [hstatus]
  rw [verdict_of_success (isSuccess_iff.mpr hsuccess) hd,
    verdict_of_success (isSuccess_iff.mpr hsuccess') hd', hseconds]
  exact judgeDocument_of_revised h a.retrySeconds (attempt < most)

/-- A name of the program's own, and not of the portal's, in front of an error, and one more member
in the error: it is the advice to retry as before. -/
theorem verdict_of_revised_sample :
    let a := saying 200 none "\x7b\"error\":\x7b\"code\":429\x7d\x7d"
    let a' := saying 200 none
      "\x7b\"next_start\":7,\"error\":\x7b\"detail\":[null],\"code\":429\x7d\x7d"
    a.verdict 0 3 = .ok (.retry none) ∧ a'.verdict 0 3 = a.verdict 0 3 := by
  intro a a'
  have hd : Document.parse? a.text = some (.object
      [(some "error", .object [(some "code", .scalar (.numeral (.ofInt 429)))])]) := by
    rw [text_saying]
    cbv
  have hd' : Document.parse? a'.text = some (.object
      [(some "next_start", .scalar (.numeral (.ofInt 7))),
        (some "error", .object [(some "detail", .array [.scalar .null]),
          (some "code", .scalar (.numeral (.ofInt 429)))])]) := by
    rw [text_saying]
    cbv
  have hretry : a.verdict 0 3 = .ok (.retry none) := by
    rw [verdict_of_success rfl hd]
    rfl
  -- first the error, with nothing around it, and then the body
  have herror := @Revision.error [] [] _ _ (@Unnoticed.inserted Complaint.fieldNames
    (Json.maxDepth - 2) [] [(some "code", .scalar (.numeral (.ofInt 429)))] "detail"
    (.array [.scalar .null]) (by decide) rfl)
  have htop := Revision.top (@Unnoticed.inserted ("error" :: Page.fieldNames) (Json.maxDepth - 1) []
    [(some "error", .object [(some "detail", .array [.scalar .null]),
      (some "code", .scalar (.numeral (.ofInt 429)))])] "next_start"
    (.scalar (.numeral (.ofInt 7))) (by decide) rfl)
  have hrevised := (Relation.ReflTransGen.single herror).tail htop
  -- both are written out before they are compared, for the texts are long
  have hstatus : a.status = 200 := rfl
  have hstatus' : a'.status = 200 := rfl
  have hheader : a.retryAfter = none := rfl
  have hheader' : a'.retryAfter = none := rfl
  have hsame := verdict_of_revised (by rw [hstatus]; decide) (hstatus'.trans hstatus.symm)
    (hheader'.trans hheader.symm) hd hd' hrevised 0 3
  exact ⟨hretry, hsame.symm⟩

end Answer
end ContentSearch
