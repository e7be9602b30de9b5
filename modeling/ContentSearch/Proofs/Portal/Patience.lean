import ContentSearch.Proofs.Json.Record
import ContentSearch.Proofs.Portal.Arrival
import ContentSearch.Proofs.Portal.PageBody

/-!
# Asking for patience

A portal asks for patience with its status, or with an error in the body of an answer that claims
success. The two are met at different places: the one before the body is looked at, the other after
it was parsed; and each place has a guard of its own that asks whether there are attempts left.

The guards agree. What an answer asks for is said here by its status and its JSON alone
(`Answer.AsksPatience`), and `Complains` says without a reader which values report a code. An answer
that asks for patience comes to the advice to retry or to the rate limit, with the time that its own
header names, and how often it was asked for decides which; to an answer that does not, the counters
are nothing (**`Answer.counters_decide_retrying`**).

A code is looked for under the one name where a complaint stands, and the value there may be an
array, since complaints are records too. Everything else in a body that can be read has no say in
it.
-/

set_option autoImplicit false

namespace ContentSearch

open Json (Value)

/-! ## Complaints -/

/-- **The values that report a code**: an object with that code and, if it has a message at all, a
text for one; or the code alone or the code and a text, as an array. -/
inductive Complains (code : Nat) : Value → Prop
  | object {members : Entries Value} (hcode : members.find? "code" = some (.nat code))
      (hmessage : ∀ v, members.find? "message" = some v → ∃ s, v = .string s) :
      Complains code (.object members)
  | bare : Complains code (.array [.nat code])
  | worded (message : String) : Complains code (.array [.nat code, .string message])

namespace Complaint

/-- The fields that report a code. -/
def FieldsComplain (code : Nat) (es : Entries Value) : Prop :=
  es.find? "code" = some (.nat code) ∧
    ∀ v, es.find? "message" = some v → ∃ s, v = .string s

theorem ofFields?_code_iff {code : Nat} (hcode : code < Nat.pow 2 16) {es : Entries Value} :
    (∃ c, ofFields? es = some c ∧ c.code = code) ↔ FieldsComplain code es := by
  have hread : Json.requiredField? es "code" (Value.asNat? (Nat.pow 2 16)) = some code ↔
      es.find? "code" = some (.nat code) := by
    rw [Json.requiredField?, Option.bind_eq_some_iff]
    constructor
    · rintro ⟨v, hv, hn⟩
      rw [hv, (Value.asNat?_eq_some_iff.mp hn).1]
    · intro h
      exact ⟨_, h, Value.asNat?_nat hcode⟩
  unfold ofFields? FieldsComplain
  rw [← hread]
  cases Json.requiredField? es "code" (Value.asNat? (Nat.pow 2 16)) with
  | none => simp
  | some n =>
    unfold Json.field?
    cases es.find? "message" with
    | none => simp
    | some v => cases v <;> simp [Value.asString?]

/-- The items of an array stand for the fields in their order. -/
theorem fieldsComplain_zip_iff {code : Nat} {items : List Value} :
    items.length ≤ fieldNames.length ∧ FieldsComplain code (fieldNames.zip items) ↔
      Complains code (.array items) := by
  constructor
  · rintro ⟨hlength, hcode, hmessage⟩
    match items, hlength, hcode, hmessage with
    | [_], _, hcode, _ =>
      obtain rfl := Option.some.inj hcode
      exact .bare
    | [_, b], _, hcode, hmessage =>
      obtain rfl := Option.some.inj hcode
      obtain ⟨s, rfl⟩ := hmessage b rfl
      exact .worded s
  · intro h
    cases h with
    | bare => exact ⟨Nat.le_succ 1, rfl, nofun⟩
    | worded message => exact ⟨Nat.le_refl 2, rfl, fun v hv => ⟨message, (Option.some.inj hv).symm⟩⟩

theorem ofJson?_code_iff {code : Nat} (hcode : code < Nat.pow 2 16) {e : Value} :
    (∃ c, ofJson? e = some c ∧ c.code = code) ↔ Complains code e := by
  cases e with
  | object members =>
    have hfind : ∀ k ∈ fieldNames, Entries.find? k (members.filter fun e => e.1 ∈ fieldNames)
        = Entries.find? k members := fun k hk => Entries.find?_filter hk members
    show (∃ c, ofFields? (members.filter fun e => e.1 ∈ fieldNames) = some c ∧ c.code = code) ↔ _
    rw [ofFields?_code_iff hcode, FieldsComplain, hfind "code" (by decide),
      hfind "message" (by decide)]
    constructor
    · rintro ⟨hfirst, hmessage⟩
      exact .object hfirst hmessage
    · rintro ⟨hfirst, hmessage⟩
      exact ⟨hfirst, hmessage⟩
  | array items =>
    show (∃ c, (Json.alongside? fieldNames items).bind ofFields? = some c ∧ c.code = code) ↔ _
    rw [← fieldsComplain_zip_iff, Json.alongside?]
    split
    · rename_i hlength
      rw [Option.bind_some, ofFields?_code_iff hcode, and_iff_right hlength]
    · rename_i hlength
      refine iff_of_false ?_ fun h => hlength h.1
      rintro ⟨c, hc, -⟩
      cases hc
  | null | bool b | number n | string s =>
    refine iff_of_false ?_ fun h => by cases h
    rintro ⟨c, hc, -⟩
    cases hc

end Complaint

/-! ## Answers -/

namespace Answer

/-- **What asks for patience**: the status 429, or a success with a body that reports this code. -/
def AsksPatience (a : Answer) : Prop :=
  a.status = 429 ∨
    (200 ≤ a.status ∧ a.status ≤ 299) ∧
      ∃ v e, Value.parse? a.text = some v ∧ v.get? "error" = some e ∧ Complains 429 e

theorem isRateLimited_iff {a : Answer} : a.isRateLimited = true ↔ a.AsksPatience := by
  have hcomplaint : a.complaint?.any (·.code = 429) = true ↔
      ∃ v e, Value.parse? a.text = some v ∧ v.get? "error" = some e ∧ Complains 429 e := by
    have hany : a.complaint?.any (·.code = 429) = true ↔
        ∃ c, a.complaint? = some c ∧ c.code = 429 := by
      cases a.complaint? <;> simp
    have hcode : ∀ e, Complains 429 e ↔ ∃ c, Complaint.ofJson? e = some c ∧ c.code = 429 :=
      fun e => (Complaint.ofJson?_code_iff (by decide)).symm
    rw [hany]
    simp only [complaint?, Option.bind_eq_some_iff, hcode]
    constructor
    · rintro ⟨c, ⟨v, hv, e, he, hc⟩, hlimit⟩
      exact ⟨v, e, hv, he, c, hc, hlimit⟩
    · rintro ⟨v, e, hv, he, c, hc, hlimit⟩
      exact ⟨c, ⟨v, hv, e, he, hc⟩, hlimit⟩
  unfold isRateLimited AsksPatience
  rw [Bool.or_eq_true, decide_eq_true_iff, Bool.and_eq_true, isSuccess_iff, hcomplaint]

/-- **The counters decide about retrying and about nothing else.** An answer that does not ask for
patience comes to one outcome, however often it was sent and may be sent, and that is neither the
advice to retry nor the rate limit. One that does comes to the advice to retry as long as there are
attempts left, and to the rate limit from then on, with the time to wait that it names itself. -/
theorem counters_decide_retrying (a : Answer) :
    (¬ a.AsksPatience →
      (∀ attempt most attempt' most', a.verdict attempt most = a.verdict attempt' most') ∧
        ∀ attempt most after, a.verdict attempt most ≠ .ok (.retry after) ∧
          a.verdict attempt most ≠ .error (.refused (.rateLimited after))) ∧
      (a.AsksPatience → ∀ attempt most,
        (attempt < most → a.verdict attempt most = .ok (.retry a.retrySeconds)) ∧
          (most ≤ attempt →
            a.verdict attempt most = .error (.refused (.rateLimited a.retrySeconds)))) := by
  -- Asking for patience is being rate-limited. Without that the verdict is the result, and the
  -- result  knows no counters; with it the result is the rate limit, once no attempts are left.
  constructor
  · intro hpatience
    have hlimited : ¬ a.isRateLimited := fun h => hpatience (isRateLimited_iff.mp h)
    have hresult : ∀ attempt most, a.verdict attempt most = a.result.map .success := by
      intro attempt most
      rw [verdict_eq, if_neg fun h => hlimited h.1]
    refine ⟨fun attempt most attempt' most' => by rw [hresult, hresult], ?_⟩
    intro attempt most after
    rw [hresult]
    -- a result that is a rate limit would be one of a rate-limited answer
    cases hr : a.result with
    | ok p => exact ⟨nofun, nofun⟩
    | error e =>
      refine ⟨nofun, fun h => hlimited ?_⟩
      obtain rfl := Except.error.inj h
      exact ((result_eq_rateLimited_iff a after).mp hr).1
  · intro hpatience attempt most
    have hlimited := isRateLimited_iff.mpr hpatience
    rw [verdict_eq]
    constructor
    · intro hleft
      exact if_pos ⟨hlimited, hleft⟩
    · intro hgone
      rw [if_neg fun h => Nat.not_lt.mpr hgone h.2,
        (result_eq_rateLimited_iff a a.retrySeconds).mpr ⟨hlimited, rfl⟩]
      rfl

/-- An answer that claims success and reports the code without its name, with a retry left and
without one; and one that is no matter of patience. -/
theorem counters_decide_retrying_sample :
    let body := "\x7b\"error\":[429,\"slow down\"],\"total\":3\x7d"
    let patient := saying 203 (some (Text.Utf8.ofString "7")) body
    let forbidden := saying 403 none "no"
    patient.AsksPatience ∧ patient.verdict 0 1 = .ok (.retry (some 7)) ∧
      patient.verdict 1 1 = .error (.refused (.rateLimited (some 7))) ∧
      ¬ forbidden.AsksPatience ∧ forbidden.verdict 0 4294967295 = forbidden.verdict 3 3 := by
  intro body patient forbidden
  let error : Value := .array [.nat 429, .string "slow down"]
  let value : Value := .object [("error", error), ("total", .nat 3)]
  -- the body is what a printed value looks like, so it need not be parsed step by step
  have hbody : Value.parse? patient.text = some value.sorted := by
    have hrender : value.render = body := by rfl
    rw [text_saying, ← hrender]
    exact Value.parse?_render (by rfl)
  have herror : value.sorted.get? "error" = some error := by
    show Entries.find? "error" (Value.sortedIn _) = _
    rw [Value.find?_sortedIn (by decide)]
    rfl
  have hasks : patient.AsksPatience :=
    .inr ⟨by decide, value.sorted, error, hbody, herror, .worded "slow down"⟩
  have hforbidden : ¬ forbidden.AsksPatience := by
    rintro (hstatus | ⟨⟨-, hstatus⟩, -⟩)
    · exact absurd hstatus (by decide)
    · exact absurd hstatus (by decide)
  have hseconds : patient.retrySeconds = some 7 := by decide
  have hpatient := (counters_decide_retrying patient).2 hasks
  rw [hseconds] at hpatient
  exact ⟨hasks, (hpatient 0 1).1 (by decide), (hpatient 1 1).2 (by decide), hforbidden,
    ((counters_decide_retrying forbidden).1 hforbidden).1 0 4294967295 3 3⟩

end Answer
end ContentSearch
