import Mathlib.Data.List.Basic

/-!
# Runs of a step function

A run folds the step function over the events in the order they happen. What every step
keeps, every run keeps; when a step keeps it only under a condition on the state before
and the event, every run does whose steps all meet the condition.
-/

set_option autoImplicit false

namespace Run

universe u v w
variable {S : Type u} {E : Type v} (step : S → E → S)

def run (s : S) (es : List E) : S := es.foldl step s

def AllSteps (cond : S → E → Prop) : S → List E → Prop
  | _, [] => True
  | s, e :: es => cond s e ∧ AllSteps cond (step s e) es

/-- The property holds in every state the run reaches. -/
def Always (P : S → Prop) : S → List E → Prop
  | s, [] => P s
  | s, e :: es => P s ∧ Always P (step s e) es

/-- What the steps put out. -/
def outputs {O : Type w} (out : S → E → O) : S → List E → List O
  | _, [] => []
  | s, e :: es => out s e :: outputs out (step s e) es

variable {step} {cond : S → E → Prop}

theorem AllSteps.imp {cond' : S → E → Prop} (h : ∀ s e, cond s e → cond' s e) {s : S}
    {es : List E} (hes : AllSteps step cond s es) : AllSteps step cond' s es := by
  induction es generalizing s with
  | nil => exact trivial
  | cons e es ih => exact ⟨h s e hes.1, ih hes.2⟩

theorem AllSteps.of_forall_mem {es : List E} (h : ∀ e ∈ es, ∀ s, cond s e) (s : S) :
    AllSteps step cond s es := by
  induction es generalizing s with
  | nil => exact trivial
  | cons e es ih =>
    have hrest : ∀ e' ∈ es, ∀ s, cond s e' := fun e' he' => h e' (List.mem_cons_of_mem e he')
    exact ⟨h e List.mem_cons_self s, ih hrest _⟩

theorem AllSteps.of_forall (h : ∀ s e, cond s e) (s : S) (es : List E) :
    AllSteps step cond s es :=
  .of_forall_mem (fun e _ s => h s e) s

theorem allSteps_forall_mem {p : E → Prop} {s : S} {es : List E} :
    AllSteps step (fun _ e => p e) s es ↔ ∀ e ∈ es, p e := by
  constructor
  · intro h
    induction es generalizing s with
    | nil => exact fun e he => absurd he List.not_mem_nil
    | cons e es ih => exact List.forall_mem_cons.mpr ⟨h.1, ih h.2⟩
  · intro h
    exact .of_forall_mem (fun e he _ => h e he) s

theorem AllSteps.and {cond' : S → E → Prop} {s : S} {es : List E}
    (hes : AllSteps step cond s es) (hes' : AllSteps step cond' s es) :
    AllSteps step (fun s e => cond s e ∧ cond' s e) s es := by
  induction es generalizing s with
  | nil => exact trivial
  | cons e es ih => exact ⟨⟨hes.1, hes'.1⟩, ih hes.2 hes'.2⟩

/-- An invariant of the steps that meet the condition holds after every run of them. -/
theorem invariant_of_allSteps {P : S → Prop}
    (hstep : ∀ s e, P s → cond s e → P (step s e)) {s : S} (hs : P s) {es : List E}
    (hes : AllSteps step cond s es) : P (run step s es) := by
  induction es generalizing s with
  | nil => exact hs
  | cons e es ih => exact ih (hstep s e hs hes.1) hes.2

theorem invariant {P : S → Prop} (hstep : ∀ s e, P s → P (step s e)) {s : S} (hs : P s)
    (es : List E) : P (run step s es) := by
  induction es generalizing s with
  | nil => exact hs
  | cons e es ih => exact ih (hstep s e hs)

/-- What holds after a run held before it, or an event of the run brought it about. -/
theorem origin {P : S → Prop} {Q : E → Prop} (hstep : ∀ s e, P (step s e) → P s ∨ Q e) {s : S}
    {es : List E} (h : P (run step s es)) : P s ∨ ∃ e ∈ es, Q e := by
  induction es generalizing s with
  | nil => exact Or.inl h
  | cons e es ih =>
    rcases ih h with hs | ⟨e', he', hQ⟩
    · rcases hstep s e hs with hs | hQ
      · exact Or.inl hs
      · exact Or.inr ⟨e, List.mem_cons_self, hQ⟩
    · exact Or.inr ⟨e', List.mem_cons_of_mem e he', hQ⟩

theorem always_of_allSteps {P : S → Prop} (hstep : ∀ s e, P s → cond s e → P (step s e)) {s : S}
    (hs : P s) {es : List E} (hes : AllSteps step cond s es) : Always step P s es := by
  induction es generalizing s with
  | nil => exact hs
  | cons e es ih => exact ⟨hs, ih (hstep s e hs hes.1) hes.2⟩

theorem always_of_invariant {P : S → Prop} (hstep : ∀ s e, P s → P (step s e)) {s : S}
    (hs : P s) (es : List E) : Always step P s es :=
  always_of_allSteps (fun s e hs _ => hstep s e hs) hs
    (AllSteps.of_forall (fun _ _ => trivial) s es)

theorem Always.imp {P Q : S → Prop} (h : ∀ s, P s → Q s) {s : S} {es : List E}
    (hes : Always step P s es) : Always step Q s es := by
  induction es generalizing s with
  | nil => exact h s hes
  | cons e es ih => exact ⟨h s hes.1, ih hes.2⟩

theorem Always.and {P Q : S → Prop} {s : S} {es : List E} (hP : Always step P s es)
    (hQ : Always step Q s es) : Always step (fun s => P s ∧ Q s) s es := by
  induction es generalizing s with
  | nil => exact ⟨hP, hQ⟩
  | cons e es ih => exact ⟨⟨hP.1, hQ.1⟩, ih hP.2 hQ.2⟩

theorem Always.head {P : S → Prop} {s : S} {es : List E} (h : Always step P s es) : P s := by
  cases es with
  | nil => exact h
  | cons e es => exact h.1

theorem allSteps_of_always {P : S → Prop} (hstep : ∀ s e, P (step s e) → cond s e) {s : S}
    {es : List E} (hes : Always step P s es) : AllSteps step cond s es := by
  induction es generalizing s with
  | nil => exact trivial
  | cons e es ih => exact ⟨hstep s e hes.2.head, ih hes.2⟩

theorem Always.last {P : S → Prop} {s : S} {es : List E} (h : Always step P s es) :
    P (run step s es) := by
  induction es generalizing s with
  | nil => exact h
  | cons e es ih => exact ih h.2

/-- What does not come back once it is lost held all along if it holds at the end. -/
theorem always_of_last {P : S → Prop} (hback : ∀ s e, cond s e → P (step s e) → P s) {s : S}
    {es : List E} (hes : AllSteps step cond s es) (h : P (run step s es)) :
    Always step P s es := by
  induction es generalizing s with
  | nil => exact h
  | cons e es ih =>
    have hrest := ih hes.2 h
    exact ⟨hback s e hes.1 hrest.head, hrest⟩

theorem run_append (s : S) (es es' : List E) :
    run step s (es ++ es') = run step (run step s es) es' :=
  List.foldl_append

theorem run_concat (s : S) (es : List E) (e : E) :
    run step s (es ++ [e]) = step (run step s es) e :=
  run_append s es [e]

theorem AllSteps.concat {s : S} {es : List E} (hes : AllSteps step cond s es) {e : E}
    (he : cond (run step s es) e) : AllSteps step cond s (es ++ [e]) := by
  induction es generalizing s with
  | nil => exact ⟨he, trivial⟩
  | cons e' es ih => exact ⟨hes.1, ih hes.2 he⟩

/-- What the invariant of the steps that meet `cond'` gives at each of them. -/
theorem AllSteps.of_invariant {I : S → Prop} {cond' : S → E → Prop}
    (hI : ∀ s e, I s → cond' s e → I (step s e)) (h : ∀ s e, I s → cond' s e → cond s e) {s : S}
    {es : List E} (hes : AllSteps step cond' s es) (hs : I s) : AllSteps step cond s es := by
  induction es generalizing s with
  | nil => exact trivial
  | cons e es ih => exact ⟨h s e hs hes.1, ih hes.2 (hI s e hs hes.1)⟩

theorem AllSteps.last {s : S} {es : List E} {e : E} (hes : AllSteps step cond s (es ++ [e])) :
    cond (run step s es) e := by
  induction es generalizing s with
  | nil => exact hes.1
  | cons e' es ih => exact ih hes.2

/-- Two conditions that agree on the steps of the domain, where the invariant holds. -/
theorem allSteps_iff_allSteps {I : S → Prop} {D cond' : S → E → Prop}
    (hI : ∀ s e, I s → D s e → cond' s e → I (step s e))
    (hiff : ∀ s e, I s → D s e → (cond s e ↔ cond' s e)) {s : S} (hs : I s) {es : List E}
    (hD : AllSteps step D s es) : AllSteps step cond s es ↔ AllSteps step cond' s es := by
  induction es generalizing s with
  | nil => exact Iff.rfl
  | cons e es ih =>
    constructor
    · intro h
      have hcond := (hiff s e hs hD.1).mp h.1
      exact ⟨hcond, (ih (hI s e hs hD.1 hcond) hD.2).mp h.2⟩
    · intro h
      exact ⟨(hiff s e hs hD.1).mpr h.1, (ih (hI s e hs hD.1 h.1) hD.2).mpr h.2⟩

theorem allSteps_iff_of_invariant {I : S → Prop} {cond' : S → E → Prop}
    (hI : ∀ s e, I s → cond' s e → I (step s e))
    (hiff : ∀ s e, I s → (cond s e ↔ cond' s e)) {s : S} (hs : I s) (es : List E) :
    AllSteps step cond s es ↔ AllSteps step cond' s es :=
  allSteps_iff_allSteps (D := fun _ _ => True) (fun s e hs _ => hI s e hs)
    (fun s e hs _ => hiff s e hs) hs (AllSteps.of_forall (fun _ _ => trivial) s es)

/-- Where a step keeps the property exactly under a condition, so does a run. The
invariant `I` and the domain `D` may be used to see that. -/
theorem always_iff_allSteps {P I : S → Prop} {D : S → E → Prop}
    (hI : ∀ s e, I s → P s → D s e → I (step s e))
    (hstep : ∀ s e, I s → P s → D s e → (P (step s e) ↔ cond s e)) {s : S} (hs : I s)
    (hP : P s) {es : List E} (hD : AllSteps step D s es) :
    Always step P s es ↔ AllSteps step cond s es := by
  induction es generalizing s with
  | nil => exact ⟨fun _ => trivial, fun _ => hP⟩
  | cons e es ih =>
    have hI' := hI s e hs hP hD.1
    constructor
    · intro h
      rcases h with ⟨-, h⟩
      have hP' : P (step s e) := h.head
      exact ⟨(hstep s e hs hP hD.1).mp hP', (ih hI' hP' hD.2).mp h⟩
    · intro h
      rcases h with ⟨hcond, h⟩
      have hP' := (hstep s e hs hP hD.1).mpr hcond
      exact ⟨hP, (ih hI' hP' hD.2).mpr h⟩

theorem always_iff_of_invariant {P I : S → Prop} (hI : ∀ s e, I s → P s → I (step s e))
    (hstep : ∀ s e, I s → P s → (P (step s e) ↔ cond s e)) {s : S} (hs : I s) (hP : P s)
    (es : List E) : Always step P s es ↔ AllSteps step cond s es := by
  apply always_iff_allSteps (D := fun _ _ => True) (fun s e hs hP _ => hI s e hs hP)
    (fun s e hs hP _ => hstep s e hs hP) hs hP
  exact AllSteps.of_forall (fun _ _ => trivial) s es

theorem always_iff {P : S → Prop} (hstep : ∀ s e, P s → (P (step s e) ↔ cond s e)) {s : S}
    (hP : P s) (es : List E) : Always step P s es ↔ AllSteps step cond s es :=
  always_iff_of_invariant (I := fun _ => True) (fun _ _ _ _ => trivial)
    (fun s e _ hs => hstep s e hs) trivial hP es

end Run
