import ContentSearch.Proofs.Toml.Lines
import ContentSearch.Proofs.Toml.Table
import ContentSearch.Settings.Document

/-!
# Settings are read back as they were written

The text of settings is a document of plain lines: pairs, the header of the client's table, and
pairs again, where what is absent has no line (`lays_write`). Its entries are those of two tables
with gaps, and looking a setting up among them finds what it was (`find?_entries`), so reading the
text gives the settings back (**`parse_write`**), as long as their numbers have a place in it.

Only what was written is read back here. That other documents say the same, or say something in an
unusual layout, is the reader's matter.
-/

set_option autoImplicit false

namespace ContentSearch.Settings

open Text

/-- Settings whose numbers have a place in a document. -/
structure Fits (s : Settings) : Prop where
  timeoutSecs : ∀ n, s.timeoutSecs = some n → n < Nat.pow 2 63
  maxRetries : ∀ n, s.maxRetries = some n → n < Decimal.limit32

/-- The keys of a document before its header, each with its node if it is there. -/
def topTable (s : Settings) : Entries (Option Toml.Node) :=
  [("version", some (.integer version)), ("portal", s.portal.map .string),
   ("token", s.token.map .string)]

/-- The keys behind the header. -/
def clientTable (s : Settings) : Entries (Option Toml.Node) :=
  [("timeout_secs", s.timeoutSecs.map fun n : Nat => .integer n),
   ("max_retries", s.maxRetries.map fun n : Nat => .integer n)]

theorem nodup_topTable (s : Settings) : (Entries.names s.topTable).Nodup := by
  show ["version", "portal", "token"].Nodup
  decide

theorem nodup_clientTable (s : Settings) : (Entries.names s.clientTable).Nodup := by
  show ["timeout_secs", "max_retries"].Nodup
  decide

/-! ## The lines -/

theorem lays_line {k : String} (hk : Toml.IsBare k) {text : List Char} {v : Toml.Node}
    (h : Toml.Spells text v) :
    Toml.Lays (line k text) (Toml.pairs (Entries.present [(k, some v)])) :=
  .pair hk h

theorem lays_lineOf {α : Type} {k : String} (hk : Toml.IsBare k) {write : α → List Char}
    {node : α → Toml.Node} {o : Option α} (h : ∀ x, o = some x → Toml.Spells (write x) (node x)) :
    Toml.Lays (lineOf k write o) (Toml.pairs (Entries.present [(k, o.map node)])) := by
  cases o with
  | none => exact .nil
  | some x => exact lays_line hk (h x rfl)

theorem pairs_present_cons (k : String) (o : Option Toml.Node) (t : Entries (Option Toml.Node)) :
    Toml.pairs (Entries.present ((k, o) :: t))
      = Toml.pairs (Entries.present [(k, o)]) ++ Toml.pairs (Entries.present t) := by
  cases o <;> rfl

/-- **The text of settings, line by line.** -/
theorem lays_write {s : Settings} (h : s.Fits) :
    Toml.Lays s.write (Toml.pairs (Entries.present s.topTable) ++ [.header ["client"]]
      ++ Toml.pairs (Entries.present s.clientTable)) := by
  have hversion := lays_line (k := "version") (by decide)
    (Toml.spells_integer (n := version) (by decide))
  have hportal := lays_lineOf (k := "portal") (o := s.portal) (by decide)
    fun x _ => Toml.spells_string x
  have htoken := lays_lineOf (k := "token") (o := s.token) (by decide)
    fun x _ => Toml.spells_string x
  have htimeout := lays_lineOf (k := "timeout_secs") (o := s.timeoutSecs) (by decide)
    fun n hn => Toml.spells_integer (h.timeoutSecs n hn)
  have hretries := lays_lineOf (k := "max_retries") (o := s.maxRetries) (by decide)
    fun n hn => Toml.spells_integer (Nat.lt_trans (h.maxRetries n hn) (by decide))
  have hheader : Toml.Lays "\n[client]\n".toList [.header ["client"]] :=
    Toml.Lays.emptyLine.append (.header (k := "client") (by decide))
  rw [topTable, clientTable, pairs_present_cons "version", pairs_present_cons "portal",
    pairs_present_cons "timeout_secs", ← List.append_assoc, ← List.append_assoc]
  exact ((((hversion.append hportal).append htoken).append hheader).append htimeout).append hretries

/-! ## The entries -/

/-- What a document of the settings holds. -/
def entries (s : Settings) : Entries Toml.Node :=
  (Entries.insertAll [] (Entries.present s.topTable)).insert "client"
    (.table .header (Entries.insertAll [] (Entries.present s.clientTable)))

theorem read?_write {s : Settings} (h : s.Fits) :
    Toml.read? (String.ofList s.write) = some s.entries := by
  have htop := (Entries.names_present s.topTable).nodup s.nodup_topTable
  have hbelow := (Entries.names_present s.clientTable).nodup s.nodup_clientTable
  have hclient : "client" ∉ Entries.names (Entries.present s.topTable) := by
    intro hmem
    have hname : "client" ∈ ["version", "portal", "token"] :=
      (Entries.names_present s.topTable).subset hmem
    exact absurd hname (by decide)
  have hsum := Toml.ofStatements?_pairs htop hbelow hclient
  have hlines := (lays_write h).statements?_eq
  -- a reader takes a byte order mark in front away, and there is none
  have hmark : ∀ r, s.write ≠ '\ufeff' :: r := by
    intro r heq
    have hfront : s.write.head? = some 'v' := rfl
    rw [heq] at hfront
    exact absurd (Option.some.inj hfront) (by decide)
  unfold Toml.read?
  dsimp only
  rw [String.toList_ofList]
  split
  · rename_i r heq
    exact absurd heq (hmark r)
  · rw [hlines, Option.bind_some, hsum]
    rfl

/-- What is found among what is there of a table, is what the table has. -/
theorem find?_insertAll_present {t : Entries (Option Toml.Node)} (h : (Entries.names t).Nodup)
    (k : String) :
    Entries.find? k (Entries.insertAll [] (Entries.present t)) = (Entries.find? k t).join := by
  rw [Entries.find?_insertAll ((Entries.names_present t).nodup h), Entries.find?_present h]
  exact Option.or_none

theorem find?_entries (s : Settings) {k : String} (h : k ≠ "client") :
    s.entries.find? k = (Entries.find? k s.topTable).join := by
  rw [entries, Entries.find?_insert, if_neg h, find?_insertAll_present s.nodup_topTable]

/-! ## Reading -/

theorem key?_of_find? {α : Type} {es : Entries Toml.Node} {name : String}
    {read : Toml.Node → Option α} {node : α → Toml.Node} {o : Option α}
    (h : es.find? name = o.map node) (hread : ∀ x, o = some x → read (node x) = some x) :
    key? es name read = some o := by
  rw [key?, h]
  cases o with
  | none => rfl
  | some x =>
    dsimp only [Option.map_some]
    rw [hread x rfl]
    rfl

theorem asNat?_integer {limit n : Nat} (h : n < limit) : asNat? limit (.integer n) = some n := by
  show (if (0 : Int) ≤ n ∧ (n : Int) < limit then some (n : Int).toNat else none) = _
  rw [if_pos ⟨by omega, by omega⟩, Int.toNat_natCast]

theorem patience?_client {s : Settings} (h : s.Fits) :
    patience? (.table .header (Entries.insertAll [] (Entries.present s.clientTable)))
      = some ⟨s.timeoutSecs, s.maxRetries⟩ := by
  have htimeout : key? (Entries.insertAll [] (Entries.present s.clientTable)) "timeout_secs"
      (asNat? Decimal.limit64) = some s.timeoutSecs :=
    key?_of_find? (find?_insertAll_present s.nodup_clientTable "timeout_secs")
      fun n hn => asNat?_integer (Nat.lt_trans (h.timeoutSecs n hn) (by decide))
  have hretries : key? (Entries.insertAll [] (Entries.present s.clientTable)) "max_retries"
      (asNat? Decimal.limit32) = some s.maxRetries :=
    key?_of_find? (find?_insertAll_present s.nodup_clientTable "max_retries")
      fun n hn => asNat?_integer (h.maxRetries n hn)
  rw [patience?, htimeout, hretries]

theorem ofEntries?_entries {s : Settings} (h : s.Fits) :
    ofEntries? s.entries = some (version, s) := by
  have hversion : key? s.entries "version" (asNat? Decimal.limit32) = some (some version) :=
    key?_of_find? (find?_entries s (by decide))
      fun n hn => asNat?_integer (by rw [← Option.some.inj hn]; decide)
  have hportal : key? s.entries "portal" Toml.Node.asString? = some s.portal :=
    key?_of_find? (find?_entries s (by decide)) fun x _ => rfl
  have htoken : key? s.entries "token" Toml.Node.asString? = some s.token :=
    key?_of_find? (find?_entries s (by decide)) fun x _ => rfl
  have hclient : key? s.entries "client" patience? = some (some ⟨s.timeoutSecs, s.maxRetries⟩) := by
    have hfound : s.entries.find? "client"
        = some (.table .header (Entries.insertAll [] (Entries.present s.clientTable))) := by
      rw [entries, Entries.find?_insert, if_pos rfl]
    rw [key?, hfound]
    dsimp only
    rw [patience?_client h]
    rfl
  unfold ofEntries?
  rw [hversion, hportal, htoken, hclient]
  rfl

/-- **Reading settings gives what was written.** -/
theorem parse_write {s : Settings} (h : s.Fits) : parse (String.ofList s.write) = .ok s := by
  rw [parse, read?_write h, Option.bind_some, ofEntries?_entries h]
  exact if_neg (Nat.lt_irrefl version)

end ContentSearch.Settings
