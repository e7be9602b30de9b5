/-!
# Scanning for quotes and parentheses

A reader of a query that wants to know what is a clause has two things to remember: whether it is
inside a quoted string, and how many parentheses stand open outside. `Scan` is that reader.

A term that is put between quotes may turn the reader around, since it may hold a quote itself and
nothing is escaped. It is `Harmless` when it leaves a quoted string as it found it. Clauses of
harmless terms are not noticed (**`Harmless.clause_eq`**), and a term whose own clause is not
noticed is harmless (**`Harmless.of_clause_singleton`**).

A scan is a fold, so a text is scanned piece by piece (`Scan.run_append`), and what happens at one
depth of parentheses happens at every other (`Scan.run_shift`).
-/

set_option autoImplicit false

namespace ContentSearch

/-- Where a reader stands: inside a quoted string or outside, and how many more parentheses were
opened than closed outside. -/
structure Scan where
  inside : Bool
  depth : Int
  deriving Repr, DecidableEq

namespace Scan

def start : Scan := ⟨false, 0⟩

/-- Takes the scan over one character. Parentheses count only outside. -/
def step (σ : Scan) (c : Char) : Scan :=
  if c = '"' then { σ with inside := !σ.inside }
  else if σ.inside then σ
  else if c = '(' then { σ with depth := σ.depth + 1 }
  else if c = ')' then { σ with depth := σ.depth - 1 }
  else σ

def run (σ : Scan) (s : List Char) : Scan := s.foldl step σ

def quoted (σ : Scan) (t : String) : Scan := ((σ.step '"').run t.toList).step '"'

/-- Takes the scan over a clause that is nothing but quoted terms. -/
def clause (σ : Scan) (ts : List String) : Scan := (ts.foldl quoted (σ.step '(')).step ')'

theorem run_append (σ : Scan) (s t : List Char) : σ.run (s ++ t) = (σ.run s).run t :=
  List.foldl_append

/-- A text without quotes and parentheses is not noticed. -/
theorem run_of_quiet {s : List Char} (h : ∀ c ∈ s, c ≠ '"' ∧ c ≠ '(' ∧ c ≠ ')') :
    ∀ σ : Scan, σ.run s = σ := by
  induction s with
  | nil => intro _; rfl
  | cons c r ih =>
    intro σ
    obtain ⟨hquote, hopen, hclose⟩ := h c List.mem_cons_self
    have hstep : σ.step c = σ := by
      rw [step, if_neg hquote, if_neg hopen, if_neg hclose, ite_self]
    show (σ.step c).run r = σ
    rw [hstep]
    exact ih (fun d hd => h d (List.mem_cons_of_mem _ hd)) σ

/-- A parenthesis that is closed where it was opened leaves no trace, inside a string or out. -/
theorem step_open_close (σ : Scan) : (σ.step '(').step ')' = σ := by
  obtain ⟨inside, depth⟩ := σ
  cases inside with
  | true => rfl
  | false => simp [step]

def shift (k : Int) (σ : Scan) : Scan := { σ with depth := σ.depth + k }

theorem step_shift (k : Int) (σ : Scan) (c : Char) : (σ.shift k).step c = (σ.step c).shift k := by
  obtain ⟨inside, depth⟩ := σ
  unfold step shift
  split
  · rfl
  · split
    · rfl
    · split
      · simp only [Scan.mk.injEq, true_and]
        omega
      · split
        · simp only [Scan.mk.injEq, true_and]
          omega
        · rfl

/-- How deep a scan stands has no influence on where it goes. -/
theorem run_shift (k : Int) (s : List Char) (σ : Scan) : (σ.shift k).run s = (σ.run s).shift k := by
  induction s generalizing σ with
  | nil => rfl
  | cons c r ih =>
    show ((σ.shift k).step c).run r = ((σ.step c).run r).shift k
    rw [step_shift, ih]

end Scan

/-- A term that leaves a quoted string as it found it: read inside one, it ends inside one, and the
parentheses that it shows outside are even. -/
def Harmless (t : String) : Prop := Scan.run ⟨true, 0⟩ t.toList = ⟨true, 0⟩

instance (t : String) : Decidable (Harmless t) := inferInstanceAs (Decidable (_ = _))

namespace Harmless

/-- Whatever holds no quote is harmless, parentheses or not. -/
theorem of_no_quote {t : String} (h : '"' ∉ t.toList) : Harmless t := by
  unfold Harmless
  generalize t.toList = s at h
  induction s with
  | nil => rfl
  | cons c r ih =>
    have hc : c ≠ '"' := fun hc => h (hc ▸ List.mem_cons_self)
    have hstep : Scan.step ⟨true, 0⟩ c = ⟨true, 0⟩ := by
      rw [Scan.step, if_neg hc]
      rfl
    show (Scan.step ⟨true, 0⟩ c).run r = _
    rw [hstep]
    exact ih fun hr => h (List.mem_cons_of_mem _ hr)

/-- Between quotes, and in the parentheses of a clause, a harmless term is not noticed. -/
theorem quoted_eq {t : String} (h : Harmless t) : Scan.quoted ⟨false, 1⟩ t = ⟨false, 1⟩ := by
  have hrun : Scan.run ⟨true, 1⟩ t.toList = ⟨true, 1⟩ := by
    have := Scan.run_shift 1 t.toList ⟨true, 0⟩
    rw [h] at this
    exact this
  unfold Scan.quoted
  rw [show Scan.step ⟨false, 1⟩ '"' = ⟨true, 1⟩ from rfl, hrun]
  rfl

theorem foldl_quoted {ts : List String} (h : ∀ t ∈ ts, Harmless t) :
    ts.foldl Scan.quoted ⟨false, 1⟩ = ⟨false, 1⟩ := by
  induction ts with
  | nil => rfl
  | cons t rest ih =>
    rw [List.foldl_cons, (h t List.mem_cons_self).quoted_eq]
    exact ih fun u hu => h u (List.mem_cons_of_mem _ hu)

theorem clause_eq {ts : List String} (h : ∀ t ∈ ts, Harmless t) :
    Scan.clause .start ts = .start := by
  unfold Scan.clause
  rw [show Scan.start.step '(' = ⟨false, 1⟩ from rfl, foldl_quoted h]
  rfl

/-- A term that a clause of its own does not notice is harmless. -/
theorem of_clause_singleton {t : String} (h : Scan.clause .start [t] = .start) : Harmless t := by
  have hrun : Scan.run ⟨true, 1⟩ t.toList = (Scan.run ⟨true, 0⟩ t.toList).shift 1 :=
    Scan.run_shift 1 t.toList ⟨true, 0⟩
  have hclause : ((Scan.run ⟨true, 1⟩ t.toList).step '"').step ')' = .start := h
  rw [hrun] at hclause
  unfold Harmless
  revert hclause
  obtain ⟨inside, depth⟩ := Scan.run ⟨true, 0⟩ t.toList
  intro hclause
  cases inside with
  | true =>
    have hdepth : (⟨false, depth + 1 - 1⟩ : Scan) = ⟨false, 0⟩ := hclause
    simp only [Scan.mk.injEq, true_and] at hdepth
    rw [show depth = 0 by omega]
  | false =>
    -- the closing parenthesis went unseen, so the scan is still inside
    have hinside : (⟨true, depth + 1⟩ : Scan) = ⟨false, 0⟩ := hclause
    simp at hinside

end Harmless

end ContentSearch
