import Mathlib.Logic.Function.Basic
import Nerea.Shared.InTurn
import Nerea.Shared.Run

/-!
# The accessor of the engine

A reader that finds no instance awaits the directory and then the engine, and assigns what it
was given without looking again. Two readers in the window between the check and the
assignment make an engine each, and this is the only way to a second one.
-/

set_option autoImplicit false

namespace Nerea.Services

/-- Where a reader of `DhtBusca.instancia` stands. -/
inductive Lector where
  | ausente
  | directorio
  | motor
  /-- `crear` has its engine, and nobody has been told. -/
  | creado (m : ℕ)
  | listo (m : ℕ)
  | fallo
deriving DecidableEq

/-- The engine a reader holds, assigned or not. -/
def Lector.tiene : Lector → Option ℕ
  | .creado m => some m
  | .listo m => some m
  | _ => none

/-- Between the check of `_inst` and the assignment. -/
def Lector.EnCurso : Lector → Prop
  | .directorio => True
  | .motor => True
  | .creado _ => True
  | _ => False

theorem Lector.ne_of_tiene {l : Lector} (hl : l.tiene = none) (m : ℕ) :
    l ≠ .creado m ∧ l ≠ .listo m := by
  constructor
  · intro h
    rw [h] at hl
    cases hl
  · intro h
    rw [h] at hl
    cases hl

/-- Engines are numbered as they are created. -/
structure Instancia where
  inst : Option ℕ
  lectores : ℕ → Lector
  motores : ℕ

namespace Instancia

/-- `motor_dht_new`: the directory, the index and the runtime, each of which may fail. -/
def motorDhtNew (crea carga runtime : Except String Unit) : Except String Unit := do
  crea
  carga
  runtime

inductive Suceso where
  | lee (n : ℕ)
  /-- `getApplicationSupportDirectory` -/
  | directorio (n : ℕ) (r : Except String Unit)
  | motor (n : ℕ) (crea carga runtime : Except String Unit)
  | sigue (n : ℕ)

def setLector (s : Instancia) (n : ℕ) (l : Lector) : Instancia :=
  { s with lectores := Function.update s.lectores n l }

def paso (s : Instancia) : Suceso → Instancia
  | .lee n =>
    match s.lectores n with
    | .ausente =>
      match s.inst with
      | none => s.setLector n .directorio
      | some m => s.setLector n (.listo m)
    | _ => s
  | .directorio n r =>
    match s.lectores n, r with
    | .directorio, .ok () => s.setLector n .motor
    | .directorio, .error _ => s.setLector n .fallo
    | _, _ => s
  | .motor n crea carga runtime =>
    match s.lectores n, motorDhtNew crea carga runtime with
    | .motor, .ok () => { s.setLector n (.creado s.motores) with motores := s.motores + 1 }
    | .motor, .error _ => s.setLector n .fallo
    | _, _ => s
  | .sigue n =>
    match s.lectores n with
    | .creado m => { s.setLector n (.listo m) with inst := some m }
    | _ => s

def inicial : Instancia := ⟨none, fun _ => .ausente, 0⟩

/-- One engine at most, and the readers that have one have the same. -/
structure UnMotor (s : Instancia) : Prop where
  motores : s.motores ≤ 1
  mismo : ∀ n k m m', s.lectores n = .listo m → s.lectores k = .listo m' → m = m'

/-- A reader that comes now, and to whom nothing fails, gets an engine. -/
def Usable (s : Instancia) : Prop :=
  ∀ n, s.lectores n = .ausente → ∃ m, (Run.run paso s [.lee n, .directorio n (.ok ()),
    .motor n (.ok ()) (.ok ()) (.ok ()), .sigue n]).lectores n = .listo m

/-- A reader that finds no instance finds no other between its check and its assignment. -/
def Solo (s : Instancia) : Suceso → Prop
  | .lee n => s.lectores n = .ausente → s.inst = none → ∀ k, ¬ (s.lectores k).EnCurso
  | _ => True

variable {s : Instancia}

/-- Where an engine that was created may be. -/
structure Contados (s : Instancia) : Prop where
  inst : ∀ m, s.inst = some m → m < s.motores
  creado : ∀ n m, s.lectores n = .creado m → m < s.motores
  listo : ∀ n m, s.lectores n = .listo m → m < s.motores
  vivo : 0 < s.motores → s.inst ≠ none ∨ ∃ n m, s.lectores n = .creado m

theorem lectores_setLector (n k : ℕ) (l : Lector) :
    (s.setLector n l).lectores k = if k = n then l else s.lectores k :=
  Function.update_apply s.lectores n l k

/-- A reader moves on that holds no engine, to where it may hold one that was created. -/
theorem Contados.setLector (hs : Contados s) {n : ℕ} {l : Lector}
    (hn : ∀ m, s.lectores n ≠ .creado m) (hcreado : ∀ m, l ≠ .creado m)
    (hlisto : ∀ m, l = .listo m → m < s.motores) : Contados (s.setLector n l) where
  inst := hs.inst
  creado := by
    intro k m hk
    rw [lectores_setLector] at hk
    split at hk
    · exact absurd hk (hcreado m)
    · exact hs.creado k m hk
  listo := by
    intro k m hk
    rw [lectores_setLector] at hk
    split at hk
    · exact hlisto m hk
    · exact hs.listo k m hk
  vivo := by
    intro hpos
    rcases hs.vivo hpos with h | ⟨k, m, hk⟩
    · exact Or.inl h
    · refine Or.inr ⟨k, m, ?_⟩
      rw [lectores_setLector, if_neg]
      · exact hk
      · rintro rfl
        exact hn m hk

/-- A reader moves on that holds no engine, and takes none. -/
theorem Contados.sinMotor (hs : Contados s) {n : ℕ} {l l' : Lector} (hn : s.lectores n = l)
    (hl : l.tiene = none) (hl' : l'.tiene = none) : Contados (s.setLector n l') := by
  apply hs.setLector
  · intro m
    rw [hn]
    exact (Lector.ne_of_tiene hl m).1
  · exact fun m => (Lector.ne_of_tiene hl' m).1
  · exact fun m h => absurd h (Lector.ne_of_tiene hl' m).2

theorem Contados.nuevo (hs : Contados s) (n : ℕ) :
    Contados { s.setLector n (.creado s.motores) with motores := s.motores + 1 } where
  inst := fun m hm => Nat.lt_succ_of_lt (hs.inst m hm)
  creado := by
    intro k m hk
    change (s.setLector n (.creado s.motores)).lectores k = .creado m at hk
    rw [lectores_setLector] at hk
    split at hk
    · cases hk
      exact Nat.lt_succ_self _
    · exact Nat.lt_succ_of_lt (hs.creado k m hk)
  listo := by
    intro k m hk
    change (s.setLector n (.creado s.motores)).lectores k = .listo m at hk
    rw [lectores_setLector] at hk
    split at hk
    · cases hk
    · exact Nat.lt_succ_of_lt (hs.listo k m hk)
  vivo := by
    intro _
    refine Or.inr ⟨n, s.motores, ?_⟩
    change (s.setLector n (.creado s.motores)).lectores n = _
    rw [lectores_setLector, if_pos rfl]

theorem Contados.asigna (hs : Contados s) {n m : ℕ} (hn : s.lectores n = .creado m) :
    Contados { s.setLector n (.listo m) with inst := some m } where
  inst := by
    rintro m' hm
    cases hm
    exact hs.creado n m hn
  creado := by
    intro k m' hk
    change (s.setLector n (.listo m)).lectores k = .creado m' at hk
    rw [lectores_setLector] at hk
    split at hk
    · cases hk
    · exact hs.creado k m' hk
  listo := by
    intro k m' hk
    change (s.setLector n (.listo m)).lectores k = .listo m' at hk
    rw [lectores_setLector] at hk
    split at hk
    · cases hk
      exact hs.creado n m hn
    · exact hs.listo k m' hk
  vivo := fun _ => Or.inl (Option.some_ne_none m)

theorem Contados.paso (hs : Contados s) (e : Suceso) : Contados (paso s e) := by
  cases e with
  | lee n =>
    unfold Instancia.paso
    dsimp only
    split
    · rename_i hn
      cases hinst : s.inst with
      | none => exact hs.sinMotor hn rfl rfl
      | some m =>
        apply hs.setLector
        · intro m'
          rw [hn]
          exact (Lector.ne_of_tiene rfl m').1
        · intro m' h
          cases h
        · intro m' h
          cases h
          exact hs.inst m hinst
    · exact hs
  | directorio n r =>
    unfold Instancia.paso
    dsimp only
    split
    · exact hs.sinMotor ‹_› rfl rfl
    · exact hs.sinMotor ‹_› rfl rfl
    · exact hs
  | motor n crea carga runtime =>
    unfold Instancia.paso
    dsimp only
    split
    · exact hs.nuevo n
    · exact hs.sinMotor ‹_› rfl rfl
    · exact hs
  | sigue n =>
    unfold Instancia.paso
    dsimp only
    split
    · exact hs.asigna ‹_›
    · exact hs

theorem Contados.unMotor_iff (hs : Contados s) : UnMotor s ↔ s.motores ≤ 1 := by
  refine ⟨fun h => h.motores, fun h => ⟨h, ?_⟩⟩
  intro n k m m' hn hk
  have hm := hs.listo n m hn
  have hm' := hs.listo k m' hk
  omega

theorem Contados.motores_eq_zero_iff (hs : Contados s) :
    s.motores = 0 ↔ s.inst = none ∧ ∀ k m, s.lectores k ≠ .creado m := by
  constructor
  · intro hzero
    constructor
    · by_contra hinst
      obtain ⟨m, hm⟩ := Option.ne_none_iff_exists'.mp hinst
      have hlt := hs.inst m hm
      omega
    · intro k m hk
      have hlt := hs.creado k m hk
      omega
  · intro h
    by_contra hpos
    rcases hs.vivo (by omega) with hinst | ⟨k, m, hk⟩
    · exact hinst h.1
    · exact h.2 k m hk

/-- Only the event of an engine moves the count. -/
theorem motores_paso {e : Suceso} (he : ∀ n crea carga runtime, e ≠ .motor n crea carga runtime) :
    (paso s e).motores = s.motores := by
  cases e with
  | lee n =>
    unfold paso
    dsimp only
    split
    · split <;> rfl
    · rfl
  | directorio n r =>
    unfold paso
    dsimp only
    split <;> rfl
  | motor n crea carga runtime => exact absurd rfl (he n crea carga runtime)
  | sigue n =>
    unfold paso
    dsimp only
    split <;> rfl

theorem motores_motor {n : ℕ} {crea carga runtime : Except String Unit}
    (hno : ¬ (s.lectores n = .motor ∧ motorDhtNew crea carga runtime = .ok ())) :
    (paso s (.motor n crea carga runtime)).motores = s.motores := by
  unfold paso
  dsimp only
  split
  · exact absurd ⟨‹_›, ‹_›⟩ hno
  · rfl
  · rfl

theorem motores_crea {n : ℕ} {crea carga runtime : Except String Unit}
    (hn : s.lectores n = .motor) (hnew : motorDhtNew crea carga runtime = .ok ()) :
    (paso s (.motor n crea carga runtime)).motores = s.motores + 1 := by
  unfold paso
  dsimp only
  rw [hn, hnew]

/-- At most one reader is between its check and its assignment, and none is while there is an
instance. -/
def Turnado (s : Instancia) : Prop := InTurn Lector.EnCurso s.lectores s.inst

theorem Turnado.paso (hs : Turnado s) {e : Suceso} (he : Solo s e) : Turnado (paso s e) := by
  cases e with
  | lee n =>
    unfold Instancia.paso
    dsimp only
    split
    · rename_i hn
      cases hinst : s.inst with
      | none => exact InTurn.enter hinst (he hn hinst) n _
      | some m => exact InTurn.advance hs (i := n) (f := .listo m) nofun
    · exact hs
  | directorio n r =>
    unfold Instancia.paso
    dsimp only
    split
    · rename_i hn
      exact InTurn.advance hs fun _ => hn ▸ trivial
    · exact InTurn.advance hs (i := n) (f := .fallo) nofun
    · exact hs
  | motor n crea carga runtime =>
    unfold Instancia.paso
    dsimp only
    split
    · rename_i hn _
      exact InTurn.advance hs fun _ => hn ▸ trivial
    · exact InTurn.advance hs (i := n) (f := .fallo) nofun
    · exact hs
  | sigue n =>
    unfold Instancia.paso
    dsimp only
    split
    · rename_i m hn
      exact InTurn.leave hs (i := n) (hn ▸ trivial) (f := .listo m) nofun _
    · exact hs

/-- The engine that comes is the first: no other reader has one to assign. -/
theorem Turnado.motores_eq_zero (hs : Turnado s) (h : Contados s) {n : ℕ}
    (hn : s.lectores n = .motor) : s.motores = 0 := by
  have hself : (s.lectores n).EnCurso := hn ▸ trivial
  refine h.motores_eq_zero_iff.mpr ⟨InTurn.vacant hs n hself, ?_⟩
  intro k m hk
  have hcurso : (s.lectores k).EnCurso := hk ▸ trivial
  rw [InTurn.alone hs k n hcurso hself, hn] at hk
  cases hk

theorem unMotor_paso (hs : Contados s) (ht : Turnado s) (h : UnMotor s) (e : Suceso) :
    UnMotor (paso s e) := by
  rw [(hs.paso e).unMotor_iff]
  by_cases he : ∃ n crea carga runtime, e = .motor n crea carga runtime
  · obtain ⟨n, crea, carga, runtime, rfl⟩ := he
    by_cases hcrea : s.lectores n = .motor ∧ motorDhtNew crea carga runtime = .ok ()
    · have hzero : s.motores = 0 := ht.motores_eq_zero hs hcrea.1
      have hone : (paso s (.motor n crea carga runtime)).motores = s.motores + 1 :=
        motores_crea hcrea.1 hcrea.2
      omega
    · rw [motores_motor hcrea]
      exact h.motores
  · rw [motores_paso fun n crea carga runtime heq => he ⟨n, crea, carga, runtime, heq⟩]
    exact h.motores

theorem setLector_self (n : ℕ) (l : Lector) : (s.setLector n l).lectores n = l := by
  rw [lectores_setLector, if_pos rfl]

theorem paso_of_listo {n m : ℕ} (hn : s.lectores n = .listo m) :
    paso s (.directorio n (.ok ())) = s ∧ paso s (.motor n (.ok ()) (.ok ()) (.ok ())) = s ∧
      paso s (.sigue n) = s := by
  simp only [paso, hn, and_self]

/-- No failure is remembered. -/
theorem usable (s : Instancia) : Usable s := by
  intro n hn
  cases hinst : s.inst with
  | none =>
    refine ⟨s.motores, ?_⟩
    have hlee : paso s (.lee n) = s.setLector n .directorio := by
      simp only [paso, hn, hinst]
    have hdirectorio : paso (s.setLector n .directorio) (.directorio n (.ok ())) =
        (s.setLector n .directorio).setLector n .motor := by
      simp only [paso, setLector_self]
    simp only [Run.run, List.foldl_cons, List.foldl_nil]
    rw [hlee, hdirectorio]
    generalize hmotor : (s.setLector n .directorio).setLector n .motor = s'
    have hn' : s'.lectores n = .motor := by
      rw [← hmotor, setLector_self]
    have hmotores : s'.motores = s.motores := by
      rw [← hmotor]
      rfl
    have hcrea : paso s' (.motor n (.ok ()) (.ok ()) (.ok ())) =
        { s'.setLector n (.creado s'.motores) with motores := s'.motores + 1 } := by
      simp only [paso, hn']
      rfl
    have hsigue : (s'.setLector n (.creado s'.motores)).lectores n = .creado s'.motores :=
      setLector_self n _
    rw [hcrea, ← hmotores]
    simp only [paso, hsigue]
    exact setLector_self n _
  | some m =>
    refine ⟨m, ?_⟩
    have hlee : paso s (.lee n) = s.setLector n (.listo m) := by
      simp only [paso, hn, hinst]
    obtain ⟨hdirectorio, hmotor, hsigue⟩ := paso_of_listo (setLector_self (s := s) n (.listo m))
    simp only [Run.run, List.foldl_cons, List.foldl_nil]
    rw [hlee, hdirectorio, hmotor, hsigue, setLector_self]

theorem inicial_contados : Contados inicial where
  inst := fun _ h => absurd h nofun
  creado := fun _ _ h => absurd h nofun
  listo := fun _ _ h => absurd h nofun
  vivo := fun h => absurd h (Nat.lt_irrefl 0)

theorem inicial_turnado : Turnado inicial := InTurn.idle (fun _ => id) none

/-- What a reader that has begun does when nothing fails, up to its engine. -/
def llega (n : ℕ) : List Suceso := [.directorio n (.ok ()), .motor n (.ok ()) (.ok ()) (.ok ())]

theorem run_llega {n : ℕ} (hn : s.lectores n = .directorio ∨ s.lectores n = .motor) :
    (Run.run paso s (llega n)).motores = s.motores + 1 ∧
      ∀ k, k ≠ n → (Run.run paso s (llega n)).lectores k = s.lectores k := by
  have hmotor : ∃ s₁, paso s (.directorio n (.ok ())) = s₁ ∧ s₁.lectores n = .motor ∧
      s₁.motores = s.motores ∧ ∀ k, k ≠ n → s₁.lectores k = s.lectores k := by
    rcases hn with hn | hn
    · refine ⟨s.setLector n .motor, by simp only [paso, hn], setLector_self n _, rfl, ?_⟩
      intro k hk
      rw [lectores_setLector, if_neg hk]
    · exact ⟨s, by simp only [paso, hn], hn, rfl, fun _ _ => rfl⟩
  obtain ⟨s₁, hpaso, hn₁, hmotores, hothers⟩ := hmotor
  simp only [llega, Run.run, List.foldl_cons, List.foldl_nil]
  rw [hpaso]
  refine ⟨(motores_crea hn₁ rfl).trans (congrArg (· + 1) hmotores), ?_⟩
  intro k hk
  have hcrea : paso s₁ (.motor n (.ok ()) (.ok ()) (.ok ())) =
      { s₁.setLector n (.creado s₁.motores) with motores := s₁.motores + 1 } := by
    simp only [paso, hn₁]
    rfl
  rw [hcrea]
  exact (lectores_setLector n k _).trans ((if_neg hk).trans (hothers k hk))

/-- A reader that begins while another is under way makes a second engine, if nothing fails. -/
theorem Contados.two_engines (hs : Contados s) {n : ℕ} (h : ¬ Solo s (.lee n)) :
    ∃ es, 2 ≤ (Run.run Instancia.paso s (.lee n :: es)).motores := by
  simp only [Solo, Classical.not_imp, not_forall, not_not] at h
  obtain ⟨hn, hinst, k, hk⟩ := h
  have hne : k ≠ n := by
    rintro rfl
    rw [hn] at hk
    exact hk
  have hlee : Instancia.paso s (.lee n) = s.setLector n .directorio := by
    simp only [Instancia.paso, hn, hinst]
  have hbegun : (s.setLector n .directorio).lectores n = .directorio := setLector_self n _
  have hother : (s.setLector n .directorio).lectores k = s.lectores k := by
    rw [lectores_setLector, if_neg hne]
  -- the other reader has its engine already, or gets it first
  by_cases hcreado : ∃ m, s.lectores k = .creado m
  · obtain ⟨m, hm⟩ := hcreado
    have hlt := hs.creado k m hm
    refine ⟨llega n, ?_⟩
    change 2 ≤ (Run.run Instancia.paso (Instancia.paso s (.lee n)) (llega n)).motores
    rw [hlee, (run_llega (Or.inl hbegun)).1]
    change 2 ≤ s.motores + 1
    omega
  · have hwaits : s.lectores k = .directorio ∨ s.lectores k = .motor := by
      cases hl : s.lectores k with
      | directorio => exact Or.inl rfl
      | motor => exact Or.inr rfl
      | creado m => exact absurd ⟨m, hl⟩ hcreado
      | _ =>
        rw [hl] at hk
        exact hk.elim
    obtain ⟨hcount, hrest⟩ := run_llega (s := s.setLector n .directorio) (hother.symm ▸ hwaits)
    refine ⟨llega k ++ llega n, ?_⟩
    change 2 ≤ (Run.run Instancia.paso (Instancia.paso s (.lee n)) (llega k ++ llega n)).motores
    rw [Run.run_append, hlee, (run_llega (Or.inl ((hrest n hne.symm).trans hbegun))).1, hcount]
    omega

/-- In every run in which a reader that finds no instance finds no other under way, there is one
engine and the accessor stays usable; and after any run, a reader that comes otherwise leads
to a second engine unless something fails. -/
theorem one_engine (es : List Suceso) :
    (Run.AllSteps paso Solo inicial es →
      Run.Always paso (fun s => UnMotor s ∧ Usable s) inicial es) ∧
    ∀ n, ¬ Solo (Run.run paso inicial es) (.lee n) →
      ∃ es', ¬ UnMotor (Run.run paso inicial (es ++ .lee n :: es')) := by
  constructor
  · intro hes
    have hall : Run.Always paso (fun s => (Contados s ∧ Turnado s) ∧ UnMotor s) inicial es := by
      refine Run.always_of_allSteps (fun s e hs he => ?_) ?_ hes
      · exact ⟨⟨hs.1.1.paso e, hs.1.2.paso he⟩, unMotor_paso hs.1.1 hs.1.2 hs.2 e⟩
      · exact ⟨⟨inicial_contados, inicial_turnado⟩,
          inicial_contados.unMotor_iff.mpr (Nat.zero_le 1)⟩
    exact hall.imp fun s hs => ⟨hs.2, usable s⟩
  · intro n hn
    have hcontados : Contados (Run.run paso inicial es) :=
      Run.invariant (fun _ e hs => hs.paso e) inicial_contados es
    obtain ⟨es', htwo⟩ := hcontados.two_engines hn
    refine ⟨es', fun h => ?_⟩
    rw [Run.run_append] at h
    have hle := h.motores
    omega

/-- The first reader fails, the second makes the engine, and the third gets it. -/
theorem readers_in_turn : Run.Always paso (fun s => UnMotor s ∧ Usable s) inicial
    [.lee 0, .directorio 0 (.error "sin directorio"), .lee 1, .directorio 1 (.ok ()),
      .motor 1 (.ok ()) (.ok ()) (.ok ()), .sigue 1, .lee 2] := by
  apply (one_engine _).1
  refine ⟨fun _ _ k hk => hk, trivial, ?_, trivial, trivial, trivial, nofun, trivial⟩
  intro _ _ k hk
  by_cases heq : k = 0
  · rw [heq] at hk
    exact hk
  · change (Function.update (Function.update (fun _ => Lector.ausente) 0 .directorio) 0
      .fallo k).EnCurso at hk
    rw [Function.update_of_ne heq, Function.update_of_ne heq] at hk
    exact hk

/-- Two readers before either has its engine. -/
theorem two_readers : ¬ ∀ es, Run.Always paso (fun s => UnMotor s ∧ Usable s) inicial es := by
  intro h
  have hlast := (h [.lee 0, .lee 1, .directorio 0 (.ok ()), .directorio 1 (.ok ()),
    .motor 0 (.ok ()) (.ok ()) (.ok ()), .motor 1 (.ok ()) (.ok ()) (.ok ()), .sigue 0,
    .sigue 1]).last
  exact absurd hlast.1.motores (by decide)

end Instancia
end Nerea.Services
