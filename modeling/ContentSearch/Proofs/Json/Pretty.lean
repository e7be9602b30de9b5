import ContentSearch.Proofs.Json.Printed

/-!
# Reading what was printed on many lines

The two layouts of a value differ in blanks between tokens, and there blanks do not matter. So a
value that is printed on many lines is read as the same document as one that is printed on one
(**`Document.parse?_renderPretty`**), whatever level it starts on.

All that is used of the blanks is that they are blanks; the width of a level has no part in it.
-/

set_option autoImplicit false

namespace ContentSearch.Json

namespace Scan

variable {text : List Char} {tokens : List Token}

/-- A new line may start behind any token, a numeral included. -/
theorem Continues.newLine (level : Nat) (h : Reads text tokens) :
    Continues (Value.newLine level ++ text) tokens := by
  have hindent : ∀ c ∈ List.replicate (2 * level) ' ', isSpace c := by
    intro c hc
    rw [List.eq_of_mem_replicate hc]
    rfl
  exact Continues.blank rfl (h.blanks hindent)

end Scan

namespace Value

open Json.Scan

theorem reads_prettyMember {k : String} {text : List Char} {tokens : List Token}
    (h : Reads text tokens) :
    Reads (quote k ++ [':', ' '] ++ text) (.scalar (.string (some k)) :: .colon :: tokens) := by
  have hmember := reads_member (k := k) (Continues.blank (c := ' ') rfl h).reads
  rwa [List.append_assoc]

mutual

/-- **A value printed at a level is read as the tokens of its document.** -/
theorem reads_prettyAt (level : Nat) (v : Value) : Reads (prettyAt level v) v.document.tokens := by
  -- by the shape of the value, at any level; an empty container has no blanks in it
  cases v with
  | null => exact reads_null
  | bool b =>
    cases b with
    | true => exact reads_true
    | false => exact reads_false
  | number n =>
    cases n with
    | integer n => exact reads_writeInt n
    | double x => exact reads_writeDouble x
  | string s => exact reads_quote s
  | array items =>
    cases items with
    | nil => exact (Continues.openArray Continues.closeArray.reads).reads
    | cons v vs =>
      have hitems := (reads_prettyAt (level + 1) v).append
        (continues_prettyRestItems (level + 1) vs)
      have hbody := (Continues.newLine (level + 1)
        (hitems.append (Continues.newLine level Continues.closeArray.reads))).reads
      have htext : prettyAt level (.array (v :: vs)) = '[' :: (newLine (level + 1)
          ++ (prettyAt (level + 1) v ++ prettyRestItems (level + 1) vs
            ++ (newLine level ++ [']']))) := by
        simp only [prettyAt, List.append_assoc]
      rw [htext]
      exact (Continues.openArray hbody).reads
  | object members =>
    cases members with
    | nil => exact (Continues.openObject Continues.closeObject.reads).reads
    | cons m ms =>
      obtain ⟨k, v⟩ := m
      have hmembers := reads_prettyMember (k := k) ((reads_prettyAt (level + 1) v).append
        (continues_prettyRestMembers (level + 1) ms))
      have hbody := (Continues.newLine (level + 1)
        (hmembers.append (Continues.newLine level Continues.closeObject.reads))).reads
      have htext : prettyAt level (.object ((k, v) :: ms)) = '\x7b' :: (newLine (level + 1)
          ++ (quote k ++ [':', ' '] ++ (prettyAt (level + 1) v
            ++ prettyRestMembers (level + 1) ms) ++ (newLine level ++ ['\x7d']))) := by
        simp only [prettyAt, List.append_assoc]
      rw [htext]
      exact (Continues.openObject hbody).reads
termination_by structural v

theorem continues_prettyRestItems (level : Nat) (vs : List Value) :
    Continues (prettyRestItems level vs) (Document.restItemTokens (documents vs)) := by
  cases vs with
  | nil => exact Continues.nil
  | cons v vs =>
    have hitems := (Continues.newLine level
      ((reads_prettyAt level v).append (continues_prettyRestItems level vs))).reads
    rw [prettyRestItems, List.append_assoc]
    exact Continues.comma hitems
termination_by structural vs

theorem continues_prettyRestMembers (level : Nat) (ms : List (String × Value)) :
    Continues (prettyRestMembers level ms) (Document.restMemberTokens (memberDocuments ms)) := by
  cases ms with
  | nil => exact Continues.nil
  | cons m ms =>
    obtain ⟨k, v⟩ := m
    have hmembers := (Continues.newLine level (reads_prettyMember (k := k)
      ((reads_prettyAt level v).append (continues_prettyRestMembers level ms)))).reads
    have htext : prettyRestMembers level ((k, v) :: ms) = ',' :: (newLine level
        ++ (quote k ++ [':', ' '] ++ (prettyAt level v ++ prettyRestMembers level ms))) := by
      simp only [prettyRestMembers, List.append_assoc]
    rw [htext]
    exact Continues.comma hmembers
termination_by structural ms

end
end Value

/-- **A value printed on many lines is read as its document**, the line break behind it aside. -/
theorem Document.parse?_renderPretty (v : Value) :
    Document.parse? (v.renderPretty ++ "\n") = some v.document := by
  have hend : Scan.Continues ['\n'] [] := Scan.Continues.blank rfl Scan.Reads.nil
  have hreads := (v.reads_prettyAt 0).append hend
  have htext : (v.renderPretty ++ "\n").toList = v.prettyAt 0 ++ ['\n'] := by
    rw [String.toList_append, Value.renderPretty, String.toList_ofList]
    rfl
  rw [Document.parse?, htext, Document.read?, hreads.scan?_eq, List.append_nil, Option.bind_some,
    Document.ofTokens?_tokens]

end ContentSearch.Json
