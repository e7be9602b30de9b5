import ContentSearch.Proofs.Json.Parsed
import ContentSearch.Proofs.Portal.Verdict
import ContentSearch.Proofs.Text.Utf8

/-!
# Two ways to report an error

A portal reports an error with the status of its answer, or with a complaint inside an answer whose
status claims success. The first kind is judged before its body is looked at, and its body is the
message; the second kind is parsed, and its message is a member of a member. Both end in
`Answer.refuse` with the same code, the same header and the same right to retry, so both come to the
same: to the advice to retry after the time that the header names, where the code is that of a rate
limit and there are attempts left, and to a refusal everywhere else
(**`Answer.verdict_outside_eq_inside`**). No such answer is a page, and none is unreadable.

The one difference is a message that is empty: a status has a reason of its own to put in its place,
and a complaint has none. What the outcome is then differs in its wording and in nothing else
(`SameKind`); the program ends with the same exit status.

What stands around the error in a body is free, and so is the layout of the body; all that is asked
for is that reading it finds the error, its code and its message.
-/

set_option autoImplicit false

namespace ContentSearch

open Text

/-! ## Wording -/

/-- The refusal without the portal's words. -/
def Refusal.unworded : Refusal → Refusal
  | .http status _ => .http status ""
  | .auth _ => .auth ""
  | .rateLimited after => .rateLimited after
  | .invalid _ => .invalid ""
  | .network _ => .network ""

theorem Refusal.exitStatus_unworded (r : Refusal) : r.unworded.exitStatus = r.exitStatus := by
  cases r <;> rfl

/-- **The code decides about the kind of a refusal**, and its message does not. -/
theorem Refusal.unworded_ofStatus (code : Nat) (m m' : String) (after : Option Nat) :
    (ofStatus code m after).unworded = (ofStatus code m' after).unworded := by
  unfold ofStatus
  split
  · rfl
  · split
    · rfl
    · split <;> rfl

/-- **Verdicts of one kind** on an error of this code, if the portal has asked to wait for this
long: the advice to do so on both sides, or on both sides the refusal that the code stands for.
Refusals may differ in their words, which decide nothing. -/
inductive SameKind (code : Nat) (after : Option Nat) (mayRetry : Prop) :
    Except SearchError Verdict → Except SearchError Verdict → Prop
  | retry (hagain : code = 429 ∧ mayRetry) :
      SameKind code after mayRetry (.ok (.retry after)) (.ok (.retry after))
  | refused {r r' : Refusal} {m m' : String} (hlast : ¬ (code = 429 ∧ mayRetry))
      (hrefused : r = .ofStatus code m after) (hrefused' : r' = .ofStatus code m' after)
      (hkind : r.unworded = r'.unworded) (hexit : r.exitStatus = r'.exitStatus) :
      SameKind code after mayRetry (.error (.refused r)) (.error (.refused r'))

theorem Answer.refuse_sameKind (code : Nat) (m m' : String) (after : Option Nat)
    (mayRetry : Prop) [Decidable mayRetry] :
    SameKind code after mayRetry (refuse code m after mayRetry)
      (refuse code m' after mayRetry) := by
  rw [refuse_eq, refuse_eq]
  by_cases hagain : code = 429 ∧ mayRetry
  · rw [if_pos (by simpa using hagain), if_pos (by simpa using hagain)]
    exact .retry hagain
  · rw [if_neg (by simpa using hagain), if_neg (by simpa using hagain)]
    have hkind := Refusal.unworded_ofStatus code m m' after
    refine .refused hagain rfl rfl hkind ?_
    rw [← Refusal.exitStatus_unworded, hkind, Refusal.exitStatus_unworded]

/-! ## The two answers -/

/-- An object with a code and a message is a complaint, whatever else it holds. -/
theorem Complaint.ofJson?_eq {e : Json.Value} {code : Nat} {message : String}
    (hlt : code < Nat.pow 2 16) (hcode : e.get? "code" = some (.nat code))
    (hmessage : e.get? "message" = some (.string message)) :
    ofJson? e = some ⟨code, message⟩ := by
  cases e with
  | object members =>
    have hcode' : Entries.find? "code" (members.filter fun e => e.1 ∈ fieldNames)
        = some (.nat code) :=
      (Entries.find?_filter (by decide) members).trans hcode
    have hmessage' : Entries.find? "message" (members.filter fun e => e.1 ∈ fieldNames)
        = some (.string message) :=
      (Entries.find?_filter (by decide) members).trans hmessage
    show ofFields? (members.filter fun e => e.1 ∈ fieldNames) = _
    unfold ofFields? Json.requiredField? Json.field?
    rw [hcode', hmessage', Option.bind_some, Json.Value.asNat?_nat hlt]
    rfl
  | null => cases hcode
  | bool b => cases hcode
  | number n => cases hcode
  | string s => cases hcode
  | array items => cases hcode

namespace Answer

/-- An answer whose body is a text. -/
def saying (status : Nat) (retryAfter : Option (List UInt8)) (body : String) : Answer :=
  ⟨status, retryAfter, Utf8.ofString body⟩

theorem text_saying (status : Nat) (retryAfter : Option (List UInt8)) (body : String) :
    (saying status retryAfter body).text = body := by
  show String.ofList ((Utf8.decode (Utf8.encode body.toList)).map fun c => c.getD '\ufffd') = body
  rw [Utf8.decode_encode, List.map_map]
  show String.ofList (body.toList.map id) = body
  rw [List.map_id, String.ofList_toList]

section
variable {code status : Nat} {retryAfter : Option (List UInt8)} {message body : String}
  {v e : Json.Value}

/-- What an answer comes to that reports an error with its status. -/
theorem verdict_outside (hcode : ¬ (200 ≤ code ∧ code ≤ 299)) (attempt most : Nat) :
    (saying code retryAfter message).verdict attempt most
      = refuse code (Refusal.orElse message (statusReason code))
          (saying code retryAfter message).retrySeconds (attempt < most) := by
  have hfault : (saying code retryAfter message).isSuccess = false := by
    show (decide (200 ≤ code) && decide (code ≤ 299)) = false
    rw [← Bool.decide_and]
    exact decide_eq_false hcode
  unfold verdict
  rw [hfault, text_saying]
  rfl

/-- What an answer comes to that reports an error inside its body. -/
theorem verdict_inside (hstatus : 200 ≤ status ∧ status ≤ 299)
    (hbody : Json.Value.parse? body = some v) (herror : v.get? "error" = some e)
    (hcomplaint : Complaint.ofJson? e = some ⟨code, message⟩) (attempt most : Nat) :
    (saying status retryAfter body).verdict attempt most
      = refuse code message (saying status retryAfter body).retrySeconds (attempt < most) := by
  have hsuccess : (saying status retryAfter body).isSuccess = true := by
    show (decide (200 ≤ status) && decide (status ≤ 299)) = true
    rw [← Bool.decide_and]
    exact decide_eq_true hstatus
  unfold verdict judgeValue
  rw [hsuccess, text_saying, if_pos rfl, hbody]
  dsimp only
  rw [herror]
  dsimp only
  rw [hcomplaint]

end

/-- **An error is judged alike, whichever way it arrives.** One answer has the code of the error for
its status and the message for its body; the other has a status of success, and its body is any text
of an object whose `error` is an object with that code and that message. They come to the same: both
are the advice to retry after the time in the header, or both are a refusal, and the same one.
Where the message is empty they are still both the one or both the other, and differ in nothing but
the words of the refusal. -/
theorem verdict_outside_eq_inside {code status : Nat} {message body : String} {v e : Json.Value}
    (hcode : 100 ≤ code ∧ code ≤ 999) (hfault : ¬ (200 ≤ code ∧ code ≤ 299))
    (hstatus : 200 ≤ status ∧ status ≤ 299) (hbody : Json.Value.parse? body = some v)
    (herror : v.get? "error" = some e) (hmember : e.get? "code" = some (.nat code))
    (hmessage : e.get? "message" = some (.string message))
    (retryAfter : Option (List UInt8)) (attempt most : Nat) :
    (message ≠ "" → (saying code retryAfter message).verdict attempt most
      = (saying status retryAfter body).verdict attempt most) ∧
    SameKind code (saying code retryAfter message).retrySeconds (attempt < most)
      ((saying code retryAfter message).verdict attempt most)
      ((saying status retryAfter body).verdict attempt most) := by
  have hlt : code < Nat.pow 2 16 := Nat.lt_of_le_of_lt hcode.2 (by decide)
  have hcomplaint := Complaint.ofJson?_eq hlt hmember hmessage
  have hheader : (saying status retryAfter body).retrySeconds
      = (saying code retryAfter message).retrySeconds := rfl
  rw [verdict_outside hfault, verdict_inside hstatus hbody herror hcomplaint, hheader]
  refine ⟨fun hne => ?_, refuse_sameKind code _ message _ _⟩
  rw [Refusal.orElse, if_neg hne]

/-- A portal that asks for patience inside the body of a success, among other members; heard with a
retry left and without one. -/
theorem verdict_outside_eq_inside_sample :
    let body :=
      "\x7b\"error\":\x7b\"message\":\"slow down\",\"code\":429,\"details\":[]\x7d,\"total\":3\x7d"
    let header := some (Utf8.ofString "7")
    (∃ v e, Json.Value.parse? body = some v ∧ v.get? "error" = some e ∧
      e.get? "code" = some (.nat 429) ∧ e.get? "message" = some (.string "slow down")) ∧
    (saying 203 header body).verdict 0 1 = .ok (.retry (some 7)) ∧
    (saying 203 header body).verdict 1 1 = .error (.refused (.rateLimited (some 7))) ∧
    SameKind 429 (some 7) (1 < 1) ((saying 429 header "slow down").verdict 1 1)
      ((saying 203 header body).verdict 1 1) := by
  intro body header
  let error : Json.Value :=
    .object [("message", .string "slow down"), ("code", .nat 429), ("details", .array [])]
  let value : Json.Value := .object [("error", error), ("total", .nat 3)]
  have hbody : Json.Value.parse? body = some value.sorted := by
    have hrender : value.render = body := by rfl
    rw [← hrender]
    exact Json.Value.parse?_render (by rfl)
  have herror : value.sorted.get? "error" = some error.sorted := by
    show Entries.find? "error" (Json.Value.sortedIn _) = _
    rw [Json.Value.find?_sortedIn (by decide)]
    rfl
  have hmember : error.sorted.get? "code" = some (.nat 429) := by
    show Entries.find? "code" (Json.Value.sortedIn _) = _
    rw [Json.Value.find?_sortedIn (by decide)]
    rfl
  have hmessage : error.sorted.get? "message" = some (.string "slow down") := by
    show Entries.find? "message" (Json.Value.sortedIn _) = _
    rw [Json.Value.find?_sortedIn (by decide)]
    rfl
  have hcode : 100 ≤ 429 ∧ 429 ≤ 999 := by decide
  have hfault : ¬ (200 ≤ 429 ∧ 429 ≤ 299) := by decide
  have hstatus : 200 ≤ 203 ∧ 203 ≤ 299 := by decide
  have hsame :=
    verdict_outside_eq_inside hcode hfault hstatus hbody herror hmember hmessage header
  refine ⟨⟨_, _, hbody, herror, hmember, hmessage⟩, ?_, ?_, (hsame 1 1).2⟩
  · rw [← (hsame 0 1).1 (by decide)]
    rfl
  · rw [← (hsame 1 1).1 (by decide)]
    rfl

end Answer
end ContentSearch
