import Nerea.Laurelia.Model
import Nerea.Shared.CumulativeDraw

/-!
# Sampling a token

Temperature, repetition penalty, top_k, softmax, top_p and the multinomial draw, in the
order of `LLM::sample`, for one random number.
-/

set_option autoImplicit false

namespace Nerea.Laurelia

open CumulativeDraw MaskedSoftmax

universe u
variable {R : Type u} [Field R] [LinearOrder R] {n : ℕ}

def temper (temperature : R) (logits : Vec R n) : Vec R n :=
  if temperature ≠ 1 then fun i => logits i / temperature else logits

def penalized (repetition_penalty v : R) : R :=
  if 0 < v then v / repetition_penalty else v * repetition_penalty

/-- One seen token; `seen` says which ids have had their penalty. -/
def penalizeToken (repetition_penalty : R) (s : Vec R n × (Fin n → Bool)) (t : ℕ) :
    Vec R n × (Fin n → Bool) :=
  let (logits, seen) := s
  if h : t < n then
    let t : Fin n := ⟨t, h⟩
    if seen t then (logits, seen)
    else
      (Function.update logits t (penalized repetition_penalty (logits t)),
        Function.update seen t true)
  else (logits, seen)

/-- repetition_penalty sobre tokens ya vistos. -/
def repetitionPenalty (repetition_penalty : R) (tokens : List ℕ) (logits : Vec R n) : Vec R n :=
  if repetition_penalty ≠ 1 then
    (tokens.foldl (penalizeToken repetition_penalty) (logits, fun _ => false)).1
  else logits

/-- What `keep` marks; the other entries become `out`. -/
def retain {α : Type u} (keep : List (Fin n)) (out : α) (xs : Fin n → α) : Fin n → α :=
  fun i => if i ∈ keep then xs i else out

/-- top_k: dejar solo los top_k por logit. The order, and the logits with the rest at
minus infinity. -/
def topK (top_k : ℕ) (logits : Vec R n) : List (Fin n) × (Fin n → WithBot R) :=
  let order := List.finRange n
  if 0 < top_k ∧ top_k < n then
    let order := (order.mergeSort fun a b => decide (logits b ≤ logits a)).take top_k
    (order, retain order ⊥ fun i => logits i)
  else (order, fun i => logits i)

def softmaxProbs (E : Elementary R) (logits : Fin n → WithBot R) : Vec R n :=
  let max := (List.ofFn logits).foldr max ⊥
  let probs := fun i => expSub E.exp max (logits i)
  let sum := ∑ i, probs i
  fun i => probs i / sum

/-- The tokens that top_p keeps of those in `order`. -/
def nucleus (top_p : R) (order : List (Fin n)) (probs : Vec R n) : List (Fin n) :=
  upTo probs top_p 0 (order.mergeSort fun a b => decide (probs b ≤ probs a))

def topP (top_p : R) (order : List (Fin n)) (probs : Vec R n) : Vec R n :=
  if top_p < 1 then
    retain (nucleus top_p order probs) 0 probs
  else probs

/-- The tokens that top_k and top_p keep. -/
def kept (E : Elementary R) (top_k : ℕ) (top_p : R) (logits : Vec R n) : List (Fin n) :=
  let (order, logits) := topK top_k logits
  if top_p < 1 then nucleus top_p order (softmaxProbs E logits) else order

/-- fallback: el de mayor prob. -/
def fallback (probs : Vec R n) : ℕ :=
  match List.finRange n with
  | [] => 0
  | best :: is => (heaviest probs best is : Fin n)

def multinomial (probs : Vec R n) (u : R) : ℕ :=
  match draw probs u 0 (List.finRange n) with
  | some i => i
  | none => fallback probs

/-- `u` is what `rand::random` gives, at least 0 and less than 1. -/
def LLM.sample (E : Elementary R) (logits : Vec R n) (tokens : List ℕ) (temperature : R)
    (top_k : ℕ) (top_p repetition_penalty u : R) : ℕ :=
  let logits := temper temperature logits
  let logits := repetitionPenalty repetition_penalty tokens logits
  let (order, logits) := topK top_k logits
  let probs := softmaxProbs E logits
  let probs := topP top_p order probs
  multinomial probs u

/-- The logits after temperature and penalty. -/
def adjusted (logits : Vec R n) (tokens : List ℕ) (temperature repetition_penalty : R) : Vec R n :=
  fun i =>
    if (i : ℕ) ∈ tokens then penalized repetition_penalty (logits i / temperature)
    else logits i / temperature

theorem retain_of_mem {α : Type u} {keep : List (Fin n)} {out : α} {xs : Fin n → α} {i : Fin n}
    (hi : i ∈ keep) : retain keep out xs i = xs i :=
  if_pos hi

theorem retain_of_notMem {α : Type u} {keep : List (Fin n)} {out : α} {xs : Fin n → α}
    {i : Fin n} (hi : i ∉ keep) : retain keep out xs i = out :=
  if_neg hi

theorem temper_eq (temperature : R) (logits : Vec R n) :
    temper temperature logits = fun i => logits i / temperature := by
  unfold temper
  split
  · rfl
  · rename_i h
    rw [not_not.mp h]
    simp

/-- Each id is penalised once, however often it was seen. -/
theorem foldl_penalizeToken (rp : R) (tokens : List ℕ) (logits : Vec R n) (seen : Fin n → Bool) :
    (tokens.foldl (penalizeToken rp) (logits, seen)).1 = fun i =>
      if seen i = false ∧ (i : ℕ) ∈ tokens then penalized rp (logits i) else logits i := by
  induction tokens generalizing logits seen with
  | nil => simp
  | cons t tokens ih =>
    rw [List.foldl_cons]
    by_cases ht : t < n
    · cases hseen : seen ⟨t, ht⟩ with
      | true =>
        have hstep : penalizeToken rp (logits, seen) t = (logits, seen) := by
          simp [penalizeToken, hseen]
        rw [hstep, ih]
        funext i
        by_cases hi : (i : ℕ) = t
        · have hfin : i = ⟨t, ht⟩ := Fin.ext hi
          simp [hfin, hseen]
        · simp [hi]
      | false =>
        have hstep : penalizeToken rp (logits, seen) t =
            (Function.update logits ⟨t, ht⟩ (penalized rp (logits ⟨t, ht⟩)),
              Function.update seen ⟨t, ht⟩ true) := by
          simp [penalizeToken, ht, hseen]
        rw [hstep, ih]
        funext i
        by_cases hi : (i : ℕ) = t
        · have hfin : i = ⟨t, ht⟩ := Fin.ext hi
          simp [hfin, hseen]
        · have hfin : i ≠ ⟨t, ht⟩ := fun h => hi (congrArg Fin.val h)
          simp [hfin, hi]
    · have hstep : penalizeToken rp (logits, seen) t = (logits, seen) := by
        simp [penalizeToken, ht]
      have hne : ∀ i : Fin n, (i : ℕ) ≠ t := fun i h => ht (h ▸ i.isLt)
      rw [hstep, ih]
      funext i
      simp [hne i]

theorem repetitionPenalty_eq (rp temperature : R) (tokens : List ℕ) (logits : Vec R n) :
    repetitionPenalty rp tokens (temper temperature logits) =
      adjusted logits tokens temperature rp := by
  have hone : ∀ v : R, penalized 1 v = v := by
    intro v
    simp [penalized]
  rw [temper_eq]
  unfold repetitionPenalty
  split
  · rw [foldl_penalizeToken]
    funext i
    simp [adjusted]
  · rename_i h
    rw [not_not.mp h]
    funext i
    simp [adjusted, hone]

theorem LLM.sample_eq (E : Elementary R) (logits : Vec R n) (tokens : List ℕ) (temperature : R)
    (top_k : ℕ) (top_p repetition_penalty u : R) :
    LLM.sample E logits tokens temperature top_k top_p repetition_penalty u =
      let logits := adjusted logits tokens temperature repetition_penalty
      multinomial (topP top_p (topK top_k logits).1 (softmaxProbs E (topK top_k logits).2)) u := by
  rw [← repetitionPenalty_eq]
  rfl

omit [Field R] in
theorem fallback_lt (probs : Vec R n) (h : 0 < n) : fallback probs < n := by
  unfold fallback
  split
  · exact h
  · exact Fin.is_lt _

theorem multinomial_lt (probs : Vec R n) (u : R) (h : 0 < n) : multinomial probs u < n := by
  unfold multinomial
  split
  · exact Fin.is_lt _
  · exact fallback_lt probs h

end Nerea.Laurelia
