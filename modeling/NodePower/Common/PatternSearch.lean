import Mathlib.Data.List.TakeWhile

/-!
# Searching a text for a pattern

A pattern is what a backtracking matcher finds at the start of a text: every way to match it,
the preferred one first, each with the captured value and the rest of the text. A repetition
prefers more repetitions. A search takes the preferred match at the first position that has
one.

When what follows a repetition cannot start with one of its letters, only the longest
repetition counts, and a matcher never has to go back.
-/

namespace NodePower

/-- The matches at the start of a text, the preferred one first, with what they capture and what they
leave. -/
abbrev Pattern (σ α : Type*) := List σ → List (α × List σ)

namespace Pattern

variable {σ α β : Type*}

/-- A fixed word. -/
def literal [DecidableEq σ] (word : List σ) : Pattern σ Unit := fun text =>
  if word <+: text then [((), text.drop word.length)] else []

/-- One letter of a class or more, as many as possible first. -/
def many1 (p : σ → Bool) : Pattern σ (List σ)
  | [] => []
  | c :: text => if p c then (many1 p text).map (fun m => (c :: m.1, m.2)) ++ [([c], text)] else []

/-- A pattern and then one that may depend on what the first has captured. -/
def bind (first : Pattern σ α) (next : α → Pattern σ β) : Pattern σ β := fun text =>
  (first text).flatMap fun m => next m.1 m.2

/-- A pattern with another captured value. -/
def map (f : α → β) (pattern : Pattern σ α) : Pattern σ β := fun text =>
  (pattern text).map fun m => (f m.1, m.2)

/-- Two patterns of which the first is preferred. -/
def alternative (left right : Pattern σ α) : Pattern σ α := fun text => left text ++ right text

/-- The value that the preferred match at the first possible position captures. -/
def search (pattern : Pattern σ α) : List σ → Option α
  | [] => (pattern []).head?.map Prod.fst
  | c :: text =>
    match pattern (c :: text) with
    | m :: _ => some m.1
    | [] => search pattern text

/-- A word matches itself. -/
theorem literal_append [DecidableEq σ] (word text : List σ) :
    literal word (word ++ text) = [((), text)] := by
  rw [literal, if_pos (List.prefix_append word text), List.drop_left]

/-- A word does not match a text with another first letter. -/
theorem literal_cons_of_ne [DecidableEq σ] {a b : σ} (hne : a ≠ b) (word text : List σ) :
    literal (a :: word) (b :: text) = [] := by
  rw [literal, if_neg]
  intro hstarts
  exact hne (List.cons_prefix_cons.mp hstarts).1

/-- The only first letter of a word is its first. -/
theorem forall_head?_cons {p : σ → Bool} {c : σ} {text : List σ} (hc : p c = false) :
    ∀ d ∈ (c :: text).head?, p d = false := by
  intro d hd
  rw [← Option.some.inj hd]
  exact hc

/-- A repetition needs a letter of its class. -/
theorem many1_of_head {p : σ → Bool} {text : List σ} (hhead : ∀ c ∈ text.head?, p c = false) :
    many1 p text = [] := by
  cases text with
  | nil => rfl
  | cons c rest => simp [many1, hhead c rfl]

/-- Without a match there is nothing to go on from. -/
theorem bind_of_nil {first : Pattern σ α} (next : α → Pattern σ β) {text : List σ}
    (hfirst : first text = []) : bind first next text = [] := by
  rw [bind, hfirst, List.flatMap_nil]

/-- After the only match, the second pattern decides. -/
theorem bind_of_singleton {first : Pattern σ α} (next : α → Pattern σ β) {text rest : List σ}
    {value : α} (hfirst : first text = [(value, rest)]) :
    bind first next text = next value rest := by
  rw [bind, hfirst, List.flatMap_singleton]

/-- If what follows cannot start with a letter of the repetition, only the longest one counts. -/
theorem many1_bind {p : σ → Bool} {next : List σ → Pattern σ β} {run rest : List σ}
    (hne : run ≠ []) (hrun : ∀ c ∈ run, p c = true) (hrest : ∀ c ∈ rest.head?, p c = false)
    (hnext : ∀ value c text, p c = true → next value (c :: text) = []) :
    bind (many1 p) next (run ++ rest) = next run rest := by
  induction run generalizing next with
  | nil => exact absurd rfl hne
  | cons c run ih =>
    have hc : p c = true := hrun c List.mem_cons_self
    rw [List.cons_append, bind, many1, if_pos hc, List.flatMap_append, List.flatMap_map,
      List.flatMap_singleton]
    cases run with
    | nil => rw [List.nil_append, many1_of_head hrest, List.flatMap_nil, List.nil_append]
    | cons d run =>
      have hd : p d = true := hrun d (List.mem_cons_of_mem c List.mem_cons_self)
      rw [List.cons_append, hnext [c] d (run ++ rest) hd, List.append_nil]
      exact ih (List.cons_ne_nil d run) (fun letter hletter => hrun letter (List.mem_cons_of_mem c hletter))
        (fun value letter text hletter => hnext (c :: value) letter text hletter)

/-- A match at the start is taken. -/
theorem search_of_match {pattern : Pattern σ α} {text rest : List σ} {value : α}
    {others : List (α × List σ)} (hmatch : pattern text = (value, rest) :: others) :
    search pattern text = some value := by
  cases text with
  | nil => rw [search, hmatch, List.head?_cons, Option.map_some]
  | cons c text => simp only [search, hmatch]

/-- A position without a match is passed over. -/
theorem search_cons {pattern : Pattern σ α} {c : σ} {text : List σ}
    (hnone : pattern (c :: text) = []) : search pattern (c :: text) = search pattern text := by
  simp only [search, hnone]

/-- Positions without a match are passed over. -/
theorem search_append {pattern : Pattern σ α} {lead text : List σ}
    (hnone : ∀ c rest, c :: rest <:+ lead → pattern (c :: rest ++ text) = []) :
    search pattern (lead ++ text) = search pattern text := by
  induction lead with
  | nil => rfl
  | cons c lead ih =>
    have hfirst : pattern (c :: (lead ++ text)) = [] := hnone c lead (List.suffix_refl _)
    rw [List.cons_append, search_cons hfirst]
    exact ih fun d rest hsuffix => hnone d rest (hsuffix.trans (List.suffix_cons c lead))

end Pattern

end NodePower
