import ContentSearch.Program.Ending
import ContentSearch.Proofs.Json.Pretty
import ContentSearch.Proofs.Portal.Pages

/-!
# Following the next page

A search reports a token for the page behind the one that it found, and whoever hands it back as the
page of another query asks for that page. Between the portal's number and the next request lie a
cursor, its token, the report and the reader of tokens, none of which complains of anything; what
they would do to a number that they cannot take is start again from the first page.

They agree: the token is read as the cursor it was written for, so the query that is compiled with
it is the old one on another page, and its form is the old form with two numbers in place of others
(**`Query.formPairs_onPage`**). A report names the next page in the way of its style, in a member of
its own or in its last line, and if there is none it says so, or nothing
(**`Report.page_announces`**). The results that a line stands behind are the portal's and can hold
any text; the last line is still the program's own.

A start that no cursor can hold is no next page and is not announced. Whoever follows the tokens
stops there, though the portal may have more.
-/

set_option autoImplicit false

namespace ContentSearch

open Text

/-! ## The same query on another page -/

namespace Query

def onPage (q : Query) (c : Cursor) : Query := { q with page := c }

/-- A pair of a form, as it is for another page. -/
def repaged (c : Cursor) (e : String × String) : String × String :=
  if e.1 = "start" then ("start", String.ofList (Decimal.write c.start))
  else if e.1 = "num" then ("num", String.ofList (Decimal.write c.size))
  else e

/-- **Two numbers of a form are about its page.** -/
theorem formPairs_onPage (q : Query) (c : Cursor) :
    (q.onPage c).formPairs = q.formPairs.map (repaged c) := by
  obtain ⟨text, sort, page, counts, bbox, ⟨endpoint, credential⟩⟩ := q
  cases sort <;> cases counts <;> cases bbox <;> cases credential <;> rfl

/-- **Compiling with the token of a cursor** is compiling for its page. -/
theorem compile_token {c : Cursor} (h : c.Sound) (filter : Filter) (options : Options)
    (service : Connection) :
    compile filter { options with page := some c.token } service
      = (compile filter options service).onPage c := by
  show (compile filter options service).onPage (Cursor.decode (some c.token)) = _
  rw [h.decode_token]

end Query

/-! ## The last word of a text -/

/-- A text has one last word. -/
theorem last_word_unique {a b s t : List Char} (hs : ' ' ∉ s) (ht : ' ' ∉ t)
    (h : a ++ ' ' :: s = b ++ ' ' :: t) : s = t := by
  -- one of the two blanks would stand in the other text's last word, were it not the same one
  rcases List.append_eq_append_iff.mp h with ⟨c, -, hc⟩ | ⟨c, -, hc⟩
  · cases c with
    | nil => exact (List.cons.inj hc).2
    | cons x c =>
      obtain ⟨-, rfl⟩ := List.cons.inj hc
      exact absurd (by simp) hs
  · cases c with
    | nil => exact (List.cons.inj hc).2.symm
    | cons x c =>
      obtain ⟨-, rfl⟩ := List.cons.inj hc
      exact absurd (by simp) ht

namespace Cursor

theorem not_isBlank_of_mem_token {c : Cursor} {x : Char} (h : x ∈ c.token.toList) :
    ¬ isBlank x := by
  rw [token, String.toList_ofList] at h
  exact Base64.not_isBlank_of_mem_encode h

theorem ne_bracket_of_mem_token {c : Cursor} {x : Char} (h : x ∈ c.token.toList) : x ≠ ']' := by
  rw [token, String.toList_ofList] at h
  exact Base64.ne_of_mem_encode (by decide) (by decide) h

theorem Sound.token_injective {c d : Cursor} (hc : c.Sound) (hd : d.Sound)
    (h : c.token = d.token) : c = d := by
  rw [← hc.decode_token, h, hd.decode_token]

end Cursor

namespace Report

/-- The line of a report that names a next page. -/
def nextLine (c : Cursor) : String := "\nNext page: --page " ++ c.token ++ "\n"

theorem toList_nextLine (c : Cursor) :
    (nextLine c).toList = "\nNext page: --page".toList ++ ' ' :: c.token.toList ++ ['\n'] := by
  unfold nextLine
  generalize c.token = token
  simp

theorem eq_of_nextLine_suffix {c d : Cursor} (hc : c.Sound) (hd : d.Sound) {s : String}
    (h : (nextLine c).toList <:+ (s ++ nextLine d).toList) : c = d := by
  have hspace : ∀ c : Cursor, ' ' ∉ c.token.toList := fun c hmem =>
    Cursor.not_isBlank_of_mem_token hmem (by decide)
  obtain ⟨a, ha⟩ := h
  rw [String.toList_append, toList_nextLine, toList_nextLine, ← List.append_assoc,
    ← List.append_assoc, ← List.append_assoc, ← List.append_assoc] at ha
  have htokens := last_word_unique (hspace c) (hspace d) (List.append_cancel_right ha)
  exact hc.token_injective hd (String.toList_injective htokens)

/-- What a report for people says of the results, and before it of how many there are. -/
def resultsText (s : Style) (p : Page) : String :=
  s.heading (decimal p.total ++ " results") ++ String.join (p.results.map resultLine)

theorem pageText_eq (s : Style) (p : Page) :
    pageText s p = resultsText s p ++ p.next?.elim "" nextLine := by
  rw [pageText, nextToken, Option.elim_map]
  rfl

theorem resultLine_ends (result : Json.Value) : [']', '\n'] <:+ (resultLine result).toList := by
  have hend : "]\n".toList = [']', '\n'] := by decide
  rw [resultLine, String.toList_append, hend]
  exact List.suffix_append _ _

theorem heading_ends (s : Style) (text : String) : ['\n', '\n'] <:+ (s.heading text).toList := by
  have hend : "\n\n".toList = ['\n', '\n'] := by decide
  rw [Style.heading, String.toList_append, hend]
  exact List.suffix_append _ _

/-- The results end with a bracket or, if there are none, with an empty line. -/
theorem resultsText_ends (s : Style) (p : Page) :
    ∃ x, (x = ']' ∨ x = '\n') ∧ [x, '\n'] <:+ (resultsText s p).toList := by
  rw [resultsText, String.toList_append, String.toList_join]
  rcases List.eq_nil_or_concat p.results with hnone | ⟨init, last, hlast⟩
  · refine ⟨'\n', .inr rfl, ?_⟩
    rw [hnone, List.map_nil, List.flatMap_nil, List.append_nil]
    exact heading_ends s _
  · refine ⟨']', .inl rfl, ?_⟩
    rw [hlast, List.concat_eq_append, List.map_append, List.flatMap_append, ← List.append_assoc,
      List.map_singleton, List.flatMap_singleton]
    exact (resultLine_ends last).trans (List.suffix_append _ _)

/-- So no line that names a next page is to be found at their end. -/
theorem not_nextLine_suffix (c : Cursor) (s : Style) (p : Page) :
    ¬ (nextLine c).toList <:+ (resultsText s p).toList := by
  intro h
  obtain ⟨x, hx, hends⟩ := resultsText_ends s p
  have hlength : [x, '\n'].length ≤ (nextLine c).toList.length := by
    rw [toList_nextLine]
    simp only [List.length_append, List.length_cons, List.length_nil]
    omega
  -- both end the same text, so the shorter one ends the longer one, in whose last word `x` is then
  obtain ⟨a, ha⟩ := List.suffix_of_suffix_length_le hends h hlength
  rw [toList_nextLine, List.append_cons a] at ha
  have hmem : x ∈ ' ' :: c.token.toList := by
    have hlast := congrArg List.getLast? (List.append_cancel_right ha)
    rw [List.getLast?_append, List.getLast?_append, List.getLast?_singleton] at hlast
    rw [List.getLast?_eq_some_getLast (List.cons_ne_nil _ _)] at hlast
    rw [Option.some.inj hlast]
    exact List.getLast_mem _
  rcases List.mem_cons.mp hmem with rfl | hmem
  · rcases hx with hx | hx <;> exact absurd hx (by decide)
  · rcases hx with rfl | rfl
    · exact Cursor.ne_bracket_of_mem_token hmem rfl
    · exact Cursor.not_isBlank_of_mem_token hmem (by decide)

/-- What a report says of the page behind `p`, in each style. -/
structure Announces (s : Style) (p : Page) (output : String) : Prop where
  /-- In JSON, one member says it, and it is null where there is no such page. -/
  member : s.json = true → ∃ members, Json.Document.parse? output = some (.object members) ∧
    members.filter (·.1 = some "next_page")
      = [(some "next_page", .scalar (p.next?.elim .null fun c => .string (some c.token)))]
  /-- For people, a line behind the results says it, and there is none where there is no such
  page. -/
  line : s.json = false → s.quiet = false →
    output = resultsText s p ++ p.next?.elim "" nextLine ∧
      ∀ c : Cursor, c.Sound → ((nextLine c).toList <:+ output.toList ↔ p.next? = some c)
  silence : s.json = false → s.quiet = true → output = ""

theorem nextLine_suffix_iff {p : Page} (hsize : p.size < Decimal.limit32) (s : Style) {c : Cursor}
    (hc : c.Sound) : (nextLine c).toList <:+ (pageText s p).toList ↔ p.next? = some c := by
  rw [pageText_eq]
  cases hnext : p.next? with
  | none =>
    rw [Option.elim_none, String.append_empty]
    constructor
    · exact fun h => absurd h (not_nextLine_suffix c s p)
    · exact fun h => nomatch h
  | some d =>
    have hd : d.Sound := p.next?_sound hsize hnext
    rw [Option.elim_some]
    constructor
    · intro h
      rw [eq_of_nextLine_suffix hc hd h]
    · intro h
      rw [Option.some.inj h, String.toList_append]
      exact List.suffix_append _ _

/-- **A report announces the next page.** -/
theorem page_announces {p : Page} (hsize : p.size < Decimal.limit32) (s : Style) :
    Announces s p (page s p) := by
  refine ⟨fun hjson => ?_, fun hjson hquiet => ?_, fun hjson hquiet => ?_⟩
  · rw [page, Style.report, if_pos hjson]
    have hmember : (Json.Value.ofOption (nextToken p)).document
        = .scalar (p.next?.elim .null fun c => .string (some c.token)) := by
      rw [nextToken]
      cases p.next? <;> rfl
    refine ⟨_, Json.Document.parse?_renderPretty (pageJson p), ?_⟩
    rw [← hmember]
    rfl
  · have hpage : page s p = pageText s p := by
      rw [page, Style.report, hjson, hquiet]
      rfl
    rw [hpage]
    exact ⟨pageText_eq s p, fun c hc => nextLine_suffix_iff hsize s hc⟩
  · rw [page, Style.report, hjson, hquiet]
    rfl

end Report

/-! ## From the portal to the next request -/

/-- **A search that comes to a page ends with its report.** -/
theorem Execution.ending_of_search {words : List String} {around : Surroundings} {i : Invocation}
    (hwords : Invocation.ofWords around.environment words = .ok i) {args : QueryArguments}
    (htask : i.task = .search args) {query : Query} {settings : Settings}
    (hquery : args.compiled i around = .ok (query, settings)) {p : Page}
    (hsearch : (settings.client.search query around.portal).outcome = .ok p) :
    (Execution.ofWords words around).ending
      = ⟨0, Report.page (Style.ofInvocation i around.environment) p, ""⟩ := by
  have hrun : (i.run around).outcome
      = .ok (Report.page (Style.ofInvocation i around.environment) p) := by
    rw [Invocation.run, htask]
    dsimp only
    rw [Invocation.runSearch, hquery]
    dsimp only
    rw [hsearch]
  rw [Execution.ofWords_eq hwords, hrun]
  rfl

/-- What it is to follow the cursor `c` from the page `p`. -/
structure Page.Follows (p : Page) (c : Cursor) : Prop where
  start : (c.start : Int) = p.nextStart
  size : c.size = if p.size = 0 then 10 else p.size
  query : ∀ filter options service,
    Query.compile filter { options with page := some c.token } service
      = (Query.compile filter options service).onPage c
  form : ∀ filter options service,
    (Query.compile filter { options with page := some c.token } service).formPairs
      = (Query.compile filter options service).formPairs.map (Query.repaged c)

theorem Page.follows_next? {p : Page} (hsize : p.size < Decimal.limit32) {c : Cursor}
    (h : p.next? = some c) : p.Follows c := by
  have hsound : c.Sound := p.next?_sound hsize h
  obtain ⟨hstart, hnum⟩ := p.next?_eq_some h
  refine ⟨hstart, hnum, Query.compile_token hsound, fun filter options service => ?_⟩
  rw [Query.compile_token hsound, Query.formPairs_onPage]

/-- **Following the next page that a search prints asks for the page that the portal announced.** A
page has a next one where its start fits a cursor; every search that comes to a page prints it, or
that there is none; and whoever compiles with what was printed gets the same query and the same
form, but for the start and the size, and those are the portal's. -/
theorem Page.next_page_followed :
    (∀ p : Page, p.size < Decimal.limit32 →
      (p.next?.isSome ↔ 1 ≤ p.nextStart ∧ p.nextStart ≤ 4294967295) ∧
        ∀ c, p.next? = some c → p.Follows c) ∧
      ∀ words around i args query settings p,
        Invocation.ofWords around.environment words = .ok i → i.task = .search args →
        args.compiled i around = .ok (query, settings) →
        (settings.client.search query around.portal).outcome = .ok p →
        p.size < Decimal.limit32 ∧ ∃ output,
          (Execution.ofWords words around).ending = ⟨0, output, ""⟩ ∧
            Report.Announces (Style.ofInvocation i around.environment) p output := by
  refine ⟨fun p hsize => ⟨p.isSome_next?, fun c hc => follows_next? hsize hc⟩, ?_⟩
  intro words around i args query settings p hwords htask hquery hsearch
  have hsize : p.size < Decimal.limit32 := Client.size_lt_of_search hsearch
  exact ⟨hsize, _, Execution.ending_of_search hwords htask hquery hsearch,
    Report.page_announces hsize _⟩

/-- A portal that announces a page from the eleventh result on and says no size, and the line at the
end of the search that hears of it. -/
theorem Page.next_page_followed_sample :
    let portal : Portal := ⟨⟨"http".toList, some "portal.test".toList, none⟩,
      [.answer ⟨200, none, Utf8.encode "\x7b\"nextStart\":11\x7d".toList⟩]⟩
    let around : Surroundings :=
      ⟨[("HS_CONFIG", "settings"), ("HS_PORTAL", "http://portal.test")], none, .empty, [], portal, .usual⟩
    ∃ (p : Page) (output : String), p.nextStart = 11 ∧ p.size = 0 ∧ p.next? = some ⟨11, 10⟩ ∧
      p.Follows ⟨11, 10⟩ ∧ (Execution.ofWords ["search"] around).ending = ⟨0, output, ""⟩ ∧
        (Report.nextLine ⟨11, 10⟩).toList <:+ output.toList := by
  intro portal around
  let args : QueryArguments := ⟨none, none, none, none, none, none, none⟩
  let i : Invocation :=
    ⟨false, false, false, false, some "http://portal.test", none, .search args⟩
  let query : Query := Query.compile .empty (args.options i) .unset
  have hwords : Invocation.ofWords around.environment ["search"] = .ok i := by rfl
  have hquery : args.compiled i around = .ok (query, .unset) := by rfl
  have hfound : ((Settings.client .unset).search query portal).outcome.toOption.map
      (fun p => (p.nextStart, p.size)) = some (11, 0) := by decide +kernel
  obtain ⟨hpages, hruns⟩ := next_page_followed
  cases hsearch : ((Settings.client .unset).search query portal).outcome with
  | error e =>
    rw [hsearch] at hfound
    cases hfound
  | ok p =>
    rw [hsearch] at hfound
    obtain ⟨hstart, hnum⟩ := Prod.mk.inj (Option.some.inj hfound)
    obtain ⟨hsize, output, hending, hannounces⟩ :=
      hruns ["search"] around i args query .unset p hwords rfl hquery hsearch
    have hnext : p.next? = some ⟨11, 10⟩ := by
      rw [next?, hstart, hnum]
      decide
    have hline := ((hannounces.line rfl rfl).2 _ (p.next?_sound hsize hnext)).mpr hnext
    exact ⟨p, output, hstart, hnum, hnext, (hpages p hsize).2 _ hnext, hending, hline⟩

end ContentSearch
