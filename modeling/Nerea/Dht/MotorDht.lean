import Nerea.Dht.Engine

/-!
# The engine behind its mutex

Every operation of `MotorDht` locks the mutex of the engine, so a panic of one of them poisons
it and no later operation reaches the engine. `probar` panics exactly for a magnet whose text
behind the marker has a character across its byte 40, and `start` when the building of the
node does.
-/

set_option autoImplicit false

namespace Nerea.Dht

namespace DhtBusca

theorem bytesLen_cons (c : Char) (l : List Char) :
    bytesLen (c :: l) = c.utf8Size + bytesLen l :=
  rfl

/-- A character of the text has the boundary inside. -/
def Parte (n : ℕ) (l : List Char) : Prop :=
  ∃ antes c despues, l = antes ++ c :: despues ∧ bytesLen antes < n ∧
    n < bytesLen antes + c.utf8Size

theorem parte_cons {n : ℕ} {c : Char} {l : List Char} (hc : c.utf8Size ≤ n) :
    Parte n (c :: l) ↔ Parte (n - c.utf8Size) l := by
  constructor
  · intro h
    obtain ⟨antes, c', despues, heq, hlt, hgt⟩ := h
    cases antes with
    | nil =>
      obtain ⟨rfl, rfl⟩ := List.cons.inj heq
      rw [bytesLen, List.foldr_nil] at hgt
      omega
    | cons x antes =>
      obtain ⟨rfl, rfl⟩ := List.cons.inj heq
      rw [bytesLen_cons] at hlt hgt
      exact ⟨antes, c', despues, rfl, by omega, by omega⟩
  · intro h
    obtain ⟨antes, c', despues, rfl, hlt, hgt⟩ := h
    refine ⟨c :: antes, c', despues, rfl, ?_, ?_⟩
    · rw [bytesLen_cons]
      omega
    · rw [bytesLen_cons]
      omega

/-- The slice panics exactly when its end is inside a character. -/
theorem bytes_eq_none_iff {n : ℕ} {l : List Char} : bytes n l = none ↔ Parte n l := by
  induction l generalizing n with
  | nil =>
    constructor
    · intro h
      rw [bytes] at h
      cases h
    · intro h
      obtain ⟨antes, c, despues, heq, -⟩ := h
      exact absurd heq.symm (List.append_ne_nil_of_right_ne_nil _ (List.cons_ne_nil _ _))
  | cons c l ih =>
    cases n with
    | zero =>
      constructor
      · intro h
        rw [bytes] at h
        cases h
      · intro h
        obtain ⟨antes, c', despues, -, hlt, -⟩ := h
        exact absurd hlt (Nat.not_lt_zero _)
    | succ n =>
      unfold bytes
      by_cases hc : c.utf8Size ≤ n + 1
      · rw [if_pos hc, Option.map_eq_none_iff, ih, parte_cons hc]
      · rw [if_neg hc]
        refine ⟨fun _ => ⟨[], c, l, rfl, ?_, ?_⟩, fun _ => rfl⟩
        · exact Nat.succ_pos n
        · rw [bytesLen, List.foldr_nil]
          omega

/-- The text is no magnet, or has no marker, or what stands behind the first marker, up to the
next, can be cut at byte 40. -/
def Segura (texto : Texto) : Prop :=
  magnet.isPrefixOf (Whitespace.trimBoth Whitespace.isWhiteSpace texto) = true →
  ∀ resto, trasPrimera btih (Whitespace.trimBoth Whitespace.isWhiteSpace texto) = some resto →
    ¬ Parte 40 (hastaPrimera btih resto)

theorem hashDe_ne_none_iff {texto : Texto} : hashDe texto ≠ none ↔ Segura texto := by
  unfold hashDe Segura
  dsimp only
  split
  · rename_i hmagnet
    split
    · rename_i hnone
      refine ⟨fun _ _ resto hresto => ?_, fun _ h => by cases h⟩
      rw [hnone] at hresto
      cases hresto
    · rename_i resto hresto
      rw [Ne, Option.map_eq_none_iff, bytes_eq_none_iff]
      constructor
      · intro h _ resto' hresto'
        rw [hresto] at hresto'
        cases hresto'
        exact h
      · intro h
        exact h hmagnet resto hresto
  · rename_i hmagnet
    exact ⟨fun _ h => absurd h hmagnet, fun _ h => by cases h⟩

theorem probar_eq_none_iff (s : DhtBusca) {texto : Texto} :
    s.probar texto = none ↔ ¬ Segura texto := by
  rw [← hashDe_ne_none_iff, not_not]
  unfold probar
  constructor
  · intro h
    split at h
    · assumption
    · cases h
    · split at h
      · cases h
      · split at h <;> cases h
  · intro h
    rw [h]

end DhtBusca

/-- `Arc<Mutex<Option<DhtBusca>>>` -/
structure MotorDht where
  inner : Option DhtBusca
  envenenado : Bool

namespace MotorDht

def new (s : DhtBusca) : MotorDht := ⟨some s, false⟩

/-- `con` and `con_mut`; no answer is a panic, which keeps what was done up to it. -/
def con (m : MotorDht) (f : DhtBusca → DhtBusca × Option (Except String Unit)) :
    MotorDht × Option (Except String Unit) :=
  if m.envenenado then (m, some (.error "mutex envenenado"))
  else
    match m.inner with
    | none => (m, some (.error "motor caído"))
    | some s =>
      match f s with
      | (s, none) => ({ m with inner := some s, envenenado := true }, none)
      | (s, some r) => ({ m with inner := some s }, some r)

/-- `lee` is any of the other operations. -/
inductive Operacion where
  | start (pasivo activo : Bool) (fijo efimero : Option (Except String Unit))
      (hilo : Except String Unit)
  | stop (escribe renombra : Except String Unit)
  | probar (texto : Texto)
  | lee

def rotula (que : String) : Except String Unit → Except String Unit
  | .ok () => .ok ()
  | .error e => .error (que ++ e)

def Operacion.f : Operacion → DhtBusca → DhtBusca × Option (Except String Unit)
  | .start pasivo activo fijo efimero hilo, s =>
    (s.start pasivo activo fijo efimero hilo).map id (Option.map (rotula "dht start: "))
  | .stop escribe renombra, s =>
    (s.stop escribe renombra).map id fun r => some (rotula "dht stop: " r)
  | .probar texto, s =>
    match s.probar texto with
    | none => (s, none)
    | some (s, r) => (s, some (rotula "probar: " r))
  | .lee, s => (s, some (.ok ()))

/-- The threads of the engine go on without the mutex. -/
inductive Suceso where
  | llama (op : Operacion)
  | captura (hash : Texto)
  | spider (k : ℕ) (hallado : Option Texto)
  | metaLoop (k : ℕ) (sesion caido : Bool)

def paso (m : MotorDht) : Suceso → MotorDht
  | .llama op => (m.con op.f).1
  | .captura hash => { m with inner := m.inner.map fun s => s.captura hash }
  | .spider k hallado => { m with inner := m.inner.map fun s => s.spider k hallado }
  | .metaLoop k sesion caido => { m with inner := m.inner.map fun s => s.metaLoop k sesion caido }

/-- The call reaches the engine, returns what the engine says, and leaves the mutex in order. -/
def Responde (m : MotorDht) : Suceso → Prop
  | .llama op => ∃ s r, m = new s ∧ (op.f s).2 = some r ∧ m.con op.f = (new (op.f s).1, some r)
  | _ => True

/-- No `start` that is not refused panics in the building of the node. -/
def SinPanico (m : MotorDht) : Suceso → Prop
  | .llama (.start pasivo activo fijo efimero _) => ∀ s, m.inner = some s →
      s.hiloSpider = none → (pasivo = true ∨ activo = true) →
      DhtBusca.construir fijo efimero ≠ none
  | _ => True

def TextoSeguro : Suceso → Prop
  | .llama (.probar texto) => DhtBusca.Segura texto
  | _ => True

theorem con_new {s : DhtBusca} {r : Except String Unit}
    {f : DhtBusca → DhtBusca × Option (Except String Unit)} (h : (f s).2 = some r) :
    (new s).con f = (new (f s).1, some r) := by
  have hf : f s = ((f s).1, some r) := Prod.ext rfl h
  unfold con new
  dsimp only
  rw [if_neg Bool.false_ne_true, hf]

/-- The texts that are tried and the nodes that are built are all that can panic. -/
theorem f_isSome_iff (s : DhtBusca) (op : Operacion) :
    (∃ r, (op.f s).2 = some r) ↔ TextoSeguro (.llama op) ∧ SinPanico (new s) (.llama op) := by
  cases op with
  | start pasivo activo fijo efimero hilo =>
    unfold Operacion.f TextoSeguro SinPanico
    dsimp only
    generalize hr : s.start pasivo activo fijo efimero hilo = r
    have hcase := hr ▸ DhtBusca.start_arranque s pasivo activo fijo efimero hilo
    cases hcase with
    | rechazado msg hguarda =>
      refine iff_of_true ⟨_, rfl⟩ ⟨trivial, ?_⟩
      rintro s' hs' hnone hmodo
      cases hs'
      exact (hguarda.elim (fun hsome => hsome hnone) (DhtBusca.not_sinModo hmodo)).elim
    | panico hnone hmodo hconstruir =>
      refine iff_of_false (fun h => ?_) fun h => h.2 s rfl hnone hmodo hconstruir
      obtain ⟨r, hr⟩ := h
      cases hr
    | fallido dht msg hnone hmodo hvuelve =>
      exact iff_of_true ⟨_, rfl⟩ ⟨trivial, fun _ _ _ _ => hvuelve⟩
    | lanzado hnone hmodo hconstruir =>
      refine iff_of_true ⟨_, rfl⟩ ⟨trivial, fun _ _ _ _ h => ?_⟩
      cases h.symm.trans hconstruir
  | stop escribe renombra => exact iff_of_true ⟨_, rfl⟩ ⟨trivial, trivial⟩
  | probar texto =>
    unfold Operacion.f TextoSeguro SinPanico
    dsimp only
    rw [and_true]
    cases hprobar : s.probar texto with
    | none =>
      refine iff_of_false (fun h => ?_) (s.probar_eq_none_iff.mp hprobar)
      obtain ⟨r, hr⟩ := h
      cases hr
    | some x =>
      refine iff_of_true ⟨_, rfl⟩ ?_
      by_contra hno
      cases (s.probar_eq_none_iff.mpr hno).symm.trans hprobar
  | lee => exact iff_of_true ⟨_, rfl⟩ ⟨trivial, trivial⟩

theorem responde_iff (s : DhtBusca) (e : Suceso) :
    Responde (new s) e ↔ TextoSeguro e ∧ SinPanico (new s) e := by
  cases e with
  | llama op =>
    rw [← f_isSome_iff]
    constructor
    · rintro ⟨s', r, hm, hf, -⟩
      have hs : s = s' := Option.some.inj (congrArg inner hm)
      exact ⟨r, hs ▸ hf⟩
    · rintro ⟨r, hf⟩
      exact ⟨s, r, rfl, hf, con_new hf⟩
  | _ => exact iff_of_true trivial ⟨trivial, trivial⟩

theorem paso_new {s : DhtBusca} {e : Suceso} (h : Responde (new s) e) :
    ∃ s', (new s).paso e = new s' := by
  cases e with
  | llama op =>
    obtain ⟨s', r, -, -, hcon⟩ := h
    exact ⟨_, congrArg Prod.fst hcon⟩
  | captura hash => exact ⟨_, rfl⟩
  | spider k hallado => exact ⟨_, rfl⟩
  | metaLoop k sesion caido => exact ⟨_, rfl⟩

/-- Of a run, the texts that are tried. -/
theorem allSteps_textoSeguro {m : MotorDht} {es : List Suceso} :
    Run.AllSteps paso (fun _ e => TextoSeguro e) m es ↔
      ∀ texto, .llama (.probar texto) ∈ es → DhtBusca.Segura texto := by
  have hmem : Run.AllSteps paso (fun _ e => TextoSeguro e) m es ↔ ∀ e ∈ es, TextoSeguro e :=
    Run.allSteps_forall_mem
  rw [hmem]
  constructor
  · intro h texto hmem
    exact h _ hmem
  · intro h e he
    cases e with
    | llama op =>
      cases op with
      | probar texto => exact h texto he
      | _ => trivial
    | _ => trivial

/-- Of every engine and every run: each call reaches the engine and returns exactly when all the
texts that are tried can be cut, and no `start` panics. -/
theorem injection_iff (s : DhtBusca) (es : List Suceso) :
    Run.AllSteps paso Responde (new s) es ↔
      (∀ texto, .llama (.probar texto) ∈ es → DhtBusca.Segura texto) ∧
        Run.AllSteps paso SinPanico (new s) es := by
  have hboth : Run.AllSteps paso Responde (new s) es ↔
      Run.AllSteps paso (fun m e => TextoSeguro e ∧ SinPanico m e) (new s) es := by
    apply Run.allSteps_iff_of_invariant (I := fun m => ∃ s, m = new s)
    · rintro m e ⟨s, rfl⟩ he
      exact paso_new ((responde_iff s e).mpr he)
    · rintro m e ⟨s, rfl⟩
      exact responde_iff s e
    · exact ⟨s, rfl⟩
  rw [hboth, ← allSteps_textoSeguro (m := new s)]
  constructor
  · intro h
    exact ⟨h.imp fun _ _ he => he.1, h.imp fun _ _ he => he.2⟩
  · rintro ⟨htexto, hpanico⟩
    exact htexto.and hpanico

/-- A magnet with 39 digits and a letter of two bytes, and the next call of any kind. -/
theorem accent_poisons : ¬ ∀ es, Run.AllSteps paso Responde (new DhtBusca.new) es := by
  intro h
  obtain ⟨-, hlee, -⟩ := h [.llama (.probar (DhtBusca.magnet ++ '?' :: DhtBusca.btih ++
    List.replicate 39 'a' ++ ['é'])), .llama .lee]
  obtain ⟨s, r, hm, -⟩ := hlee
  have hsano : _ = false := congrArg envenenado hm
  revert hsano
  decide

end MotorDht
end Nerea.Dht
