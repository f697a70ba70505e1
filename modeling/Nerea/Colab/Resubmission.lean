import Nerea.Colab.DeadRequests

/-!
# When a cell is sent again

A call of `execute` sends its code at most three times, and once more only after a request
that came back without an error, with nothing to see and with its connection lost. That
the kernel had begun with it is not looked at.
-/

set_option autoImplicit false

namespace Nerea.Colab

namespace ColabRuntime

variable {p : Plataforma} {s s' : ColabRuntime} {h : HiloId} {x x' : Hilo}

def Muerto (d : Dart) (s : ColabRuntime) (i : IntentoId) : Prop :=
  ∃ y : Intento, s.intentos[i]? = some y ∧ y.Muerto d

/-- At most `n` requests, all of them dead. -/
structure Muertos (d : Dart) (s : ColabRuntime) (ids : List IntentoId) (n : ℕ) : Prop where
  muerto : ∀ i ∈ ids, s.Muerto d i
  length : ids.length ≤ n

/-- The last request of the call is under way. -/
structure Esperando (d : Dart) (s : ColabRuntime) (h : HiloId) (x : Hilo) (i : IntentoId) :
    Prop where
  intento : ∃ y : Intento, s.intentos[i]? = some y ∧ y.hilo = h ∧ y.devuelto = false
  previos : ∃ antes, x.enviados = antes ++ [i] ∧ s.Muertos d antes x.attempt

/-- What a call has sent, by where it stands. -/
def Fase (d : Dart) (s : ColabRuntime) (h : HiloId) (x : Hilo) : Prop :=
  match x.pc with
  | .esperando i => x.attempt < 3 ∧ s.Esperando d h x i
  | .matando => x.attempt < 3 ∧ s.Muertos d x.enviados (x.attempt + 1)
  | .fin => s.Muertos d x.enviados.dropLast 2
  | _ => x.attempt < 3 ∧ s.Muertos d x.enviados x.attempt

/-- What holds of all threads but `h`, and of the requests. -/
structure Salvo (d : Dart) (h : HiloId) (s : ColabRuntime) : Prop where
  activo : ∀ i (y : Intento), s.activo = some i → s.intentos[i]? = some y → y.devuelto = false
  fases : ∀ h' x, h' ≠ h → s.hilos[h']? = some x → s.Fase d h' x
  enviados : ∀ i (y : Intento), s.intentos[i]? = some y →
    ∃ x : Hilo, s.hilos[y.hilo]? = some x ∧ i ∈ x.enviados

structure Reenvio (d : Dart) (s : ColabRuntime) : Prop where
  activo : ∀ i (y : Intento), s.activo = some i → s.intentos[i]? = some y → y.devuelto = false
  fases : ∀ h x, s.hilos[h]? = some x → s.Fase d h x
  enviados : ∀ i (y : Intento), s.intentos[i]? = some y →
    ∃ x : Hilo, s.hilos[y.hilo]? = some x ∧ i ∈ x.enviados

/-- The requests go on: dead ones stay dead, and those of other threads under way. -/
def Siguen (d : Dart) (h : HiloId) (s s' : ColabRuntime) : Prop :=
  ∀ (i : IntentoId) (y : Intento), s.intentos[i]? = some y →
    ∃ y' : Intento, s'.intentos[i]? = some y' ∧ y'.hilo = y.hilo ∧
      (y.hilo ≠ h → y'.devuelto = y.devuelto) ∧ (y.Muerto d → y'.Muerto d)

variable {d : Dart}

theorem Siguen.muertos (hs : Siguen d h s s') {ids : List IntentoId} {n : ℕ}
    (hids : s.Muertos d ids n) : s'.Muertos d ids n := by
  refine ⟨?_, hids.length⟩
  intro i hi
  obtain ⟨y, hy, hmuerto⟩ := hids.muerto i hi
  obtain ⟨y', hy', -, -, hmuerto'⟩ := hs i y hy
  exact ⟨y', hy', hmuerto' hmuerto⟩

theorem Siguen.fase (hs : Siguen d h s s') {h' : HiloId} (hne : h' ≠ h)
    (hx : s.Fase d h' x) : s'.Fase d h' x := by
  unfold Fase at hx ⊢
  split at hx
  · obtain ⟨hattempt, ⟨y, hy, hhilo, hdevuelto⟩, antes, hantes, hprevios⟩ := hx
    obtain ⟨y', hy', hhilo', hsame, -⟩ := hs _ y hy
    refine ⟨hattempt, ⟨y', hy', hhilo'.trans hhilo, ?_⟩, antes, hantes, hs.muertos hprevios⟩
    rw [hsame (hhilo ▸ hne), hdevuelto]
  · exact ⟨hx.1, hs.muertos hx.2⟩
  · exact hs.muertos hx
  · exact ⟨hx.1, hs.muertos hx.2⟩

theorem Muertos.mono {ids : List IntentoId} {n n' : ℕ} (h : s.Muertos d ids n) (hn : n ≤ n') :
    s.Muertos d ids n' :=
  ⟨h.muerto, Nat.le_trans h.length hn⟩

theorem Muertos.dropLast {ids : List IntentoId} {n : ℕ} (h : s.Muertos d ids (n + 1)) :
    s.Muertos d ids.dropLast n := by
  refine ⟨fun i hi => h.muerto i (List.dropLast_subset _ hi), ?_⟩
  rw [List.length_dropLast]
  have hlen := h.length
  omega

theorem Muertos.fase (hx : s.Muertos d x.enviados x.attempt) (hattempt : x.attempt < 3)
    (hpc : ∀ i, x.pc ≠ .esperando i) : s.Fase d h x := by
  unfold Fase
  split
  · rename_i i hi
    exact absurd hi (hpc i)
  · exact ⟨hattempt, hx.mono (Nat.le_succ _)⟩
  · exact (hx.mono (Nat.le_of_lt_succ (Nat.lt_succ_of_lt hattempt))).dropLast
  · exact ⟨hattempt, hx⟩

theorem siguen_of_eq (h : HiloId) (hintentos : s'.intentos = s.intentos) : Siguen d h s s' := by
  intro i y hy
  exact ⟨y, hintentos ▸ hy, rfl, fun _ => rfl, id⟩

theorem fase_of_eq (hintentos : s'.intentos = s.intentos) (hx : s.Fase d h x) :
    s'.Fase d h x :=
  (siguen_of_eq (h + 1) hintentos).fase (Nat.ne_of_lt (Nat.lt_succ_self h)) hx

theorem Reenvio.salvo (hs : Reenvio d s) (h : HiloId) : Salvo d h s :=
  ⟨hs.activo, fun h' x _ => hs.fases h' x, hs.enviados⟩

theorem reenvio_of_salvo (hs : ∀ h, Salvo d h s) : Reenvio d s :=
  ⟨(hs 0).activo, fun h x => (hs (h + 1)).fases h x (Nat.ne_of_lt (Nat.lt_succ_self h)),
    (hs 0).enviados⟩

theorem siguen_of_map {g : IntentoId → Intento → Intento}
    (hmap : ∀ i, s'.intentos[i]? = (s.intentos[i]?).map (g i))
    (hhilo : ∀ i y, (g i y).hilo = y.hilo)
    (hdevuelto : ∀ i (y : Intento), s.intentos[i]? = some y → y.hilo ≠ h →
      (g i y).devuelto = y.devuelto)
    (hmuerto : ∀ i (y : Intento), s.intentos[i]? = some y → y.Muerto d → (g i y).Muerto d) :
    Siguen d h s s' := by
  intro i y hy
  refine ⟨g i y, ?_, hhilo i y, hdevuelto i y hy, hmuerto i y hy⟩
  rw [hmap, hy, Option.map_some]

theorem Salvo.of_map (hs : Salvo d h s) {g : IntentoId → Intento → Intento}
    (hmap : ∀ i, s'.intentos[i]? = (s.intentos[i]?).map (g i))
    (hhilo : ∀ i y, (g i y).hilo = y.hilo)
    (hdevuelto : ∀ i (y : Intento), s.intentos[i]? = some y → y.hilo ≠ h →
      (g i y).devuelto = y.devuelto)
    (hmuerto : ∀ i (y : Intento), s.intentos[i]? = some y → y.Muerto d → (g i y).Muerto d)
    (hactivo : ∀ i (y : Intento), s'.activo = some i → s.intentos[i]? = some y →
      (g i y).devuelto = false)
    (hother : ∀ h', h' ≠ h → s'.hilos[h']? = s.hilos[h']?)
    (hself : ∀ x : Hilo, s.hilos[h]? = some x →
      ∃ x' : Hilo, s'.hilos[h]? = some x' ∧ x'.enviados = x.enviados) : Salvo d h s' := by
  have hsiguen : Siguen d h s s' := siguen_of_map hmap hhilo hdevuelto hmuerto
  refine ⟨?_, ?_, ?_⟩
  · intro i y' hi hy'
    rw [hmap, Option.map_eq_some_iff] at hy'
    obtain ⟨y, hy, rfl⟩ := hy'
    exact hactivo i y hi hy
  · intro h' x hne hx
    exact hsiguen.fase hne (hs.fases h' x hne (hother h' hne ▸ hx))
  · intro i y' hy'
    rw [hmap, Option.map_eq_some_iff] at hy'
    obtain ⟨y, hy, rfl⟩ := hy'
    rw [hhilo]
    obtain ⟨x, hx, hi⟩ := hs.enviados i y hy
    by_cases heq : y.hilo = h
    · rw [heq] at hx ⊢
      obtain ⟨x', hx', henviados⟩ := hself x hx
      exact ⟨x', hx', henviados ▸ hi⟩
    · exact ⟨x, (hother _ heq).trans hx, hi⟩

theorem Salvo.of_eq (hs : Salvo d h s) (hintentos : s'.intentos = s.intentos)
    (hactivo : s'.activo = s.activo ∨ s'.activo = none)
    (hother : ∀ h', h' ≠ h → s'.hilos[h']? = s.hilos[h']?)
    (hself : ∀ x : Hilo, s.hilos[h]? = some x →
      ∃ x' : Hilo, s'.hilos[h]? = some x' ∧ x'.enviados = x.enviados) : Salvo d h s' := by
  refine hs.of_map (g := fun _ y => y) ?_ (fun _ _ => rfl) (fun _ _ _ _ => rfl)
    (fun _ _ _ hy => hy) ?_ hother hself
  · intro i
    rw [hintentos, Option.map_id']
  · intro i y hi hy
    rcases hactivo with hactivo | hactivo
    · exact hs.activo i y (hactivo ▸ hi) hy
    · rw [hactivo] at hi
      cases hi

theorem Salvo.reenvio (hs : Salvo d h s) (hx : s.hilos[h]? = some x) (hfase : s.Fase d h x) :
    Reenvio d s := by
  refine ⟨hs.activo, ?_, hs.enviados⟩
  intro h' z hz
  by_cases heq : h' = h
  · rw [heq] at hz ⊢
    obtain rfl := Option.some.inj (hx.symm.trans hz)
    exact hfase
  · exact hs.fases h' z heq hz

theorem Salvo.mueve (hs : Salvo d h s) {f : Hilo → Hilo} (hx : s.hilos[h]? = some x)
    (hhilos : s'.hilos = s.hilos.modify h f) (hintentos : s'.intentos = s.intentos)
    (hactivo : s'.activo = s.activo ∨ s'.activo = none)
    (henviados : ∀ x, (f x).enviados = x.enviados) (hfase : s.Fase d h (f x)) :
    Reenvio d s' := by
  have hself {z : Hilo} (hz : s.hilos[h]? = some z) : s'.hilos[h]? = some (f z) := by
    rw [hhilos, List.getElem?_modify_eq, hz]
    rfl
  have hs' : Salvo d h s' := by
    apply hs.of_eq hintentos hactivo
    · intro h' hne
      rw [hhilos, List.getElem?_modify_ne _ _ (Ne.symm hne)]
    · intro z hz
      exact ⟨f z, hself hz, henviados z⟩
  exact hs'.reenvio (hself hx) (fase_of_eq hintentos hfase)

theorem Salvo.setPc (hs : Salvo d h s) (hx : s.hilos[h]? = some x)
    (hmuertos : s.Muertos d x.enviados x.attempt) (hattempt : x.attempt < 3) {pc : Pc}
    (hpc : ∀ i, pc ≠ .esperando i)
    (hhilos : s'.hilos = s.hilos.modify h fun x => { x with pc := pc })
    (hintentos : s'.intentos = s.intentos)
    (hactivo : s'.activo = s.activo ∨ s'.activo = none) : Reenvio d s' :=
  hs.mueve hx hhilos hintentos hactivo (fun _ => rfl)
    (Muertos.fase (x := { x with pc := pc }) hmuertos hattempt hpc)

theorem Salvo.sent (hs : Salvo d h s) (hx : s.hilos[h]? = some x)
    (hmuertos : s.Muertos d x.enviados x.attempt) (hattempt : x.attempt < 3) (code : String) :
    Reenvio d (s.sent p h code) := by
  set s' := s.sent p h code
  set x' : Hilo := { x with
    pc := .esperando s.intentos.length
    enviados := x.enviados ++ [s.intentos.length] }
  have hself : s'.hilos[h]? = some x' := by
    simp only [s', ColabRuntime.sent, List.getElem?_modify_eq, hx]
    rfl
  have hother {h' : HiloId} (hne : h' ≠ h) : s'.hilos[h']? = s.hilos[h']? :=
    List.getElem?_modify_ne _ _ (Ne.symm hne)
  have hnew : s'.intentos[s.intentos.length]? =
      some (Intento.nuevo h code (p.uuid s.intentos.length)) :=
    List.getElem?_concat_length
  have hold {i : IntentoId} {y : Intento} (hy : s.intentos[i]? = some y) :
      s'.intentos[i]? = some y :=
    (List.getElem?_append_left (List.getElem?_eq_some_iff.mp hy).1).trans hy
  have hsplit {i : IntentoId} {y : Intento} (hy : s'.intentos[i]? = some y) :
      s.intentos[i]? = some y ∨
        i = s.intentos.length ∧ y = Intento.nuevo h code (p.uuid s.intentos.length) := by
    rcases Nat.lt_trichotomy i s.intentos.length with hlt | rfl | hgt
    · exact Or.inl ((List.getElem?_append_left hlt).symm.trans hy)
    · exact Or.inr ⟨rfl, Option.some.inj (hy.symm.trans hnew)⟩
    · have hlen : i < (s.intentos ++ [_]).length := (List.getElem?_eq_some_iff.mp hy).1
      rw [List.length_append, List.length_singleton] at hlen
      exact absurd (Nat.le_of_lt_succ hlen) (Nat.not_le_of_lt hgt)
  have hsiguen (h' : HiloId) : Siguen d h' s s' := by
    intro i y hy
    exact ⟨y, hold hy, rfl, fun _ => rfl, id⟩
  refine ⟨?_, ?_, ?_⟩
  · intro i y hi hy
    obtain rfl := Option.some.inj (show some s.intentos.length = some i from hi)
    obtain rfl := Option.some.inj (hnew.symm.trans hy)
    rfl
  · intro h' z hz
    by_cases heq : h' = h
    · rw [heq] at hz ⊢
      obtain rfl := Option.some.inj (hself.symm.trans hz)
      exact ⟨hattempt, ⟨_, hnew, rfl, rfl⟩, x.enviados, rfl, (hsiguen h).muertos hmuertos⟩
    · exact (hsiguen h).fase heq (hs.fases h' z heq (hother heq ▸ hz))
  · intro i y hy
    rcases hsplit hy with hy | ⟨rfl, rfl⟩
    · obtain ⟨z, hz, hi⟩ := hs.enviados i y hy
      by_cases heq : y.hilo = h
      · rw [heq] at hz ⊢
        obtain rfl := Option.some.inj (hx.symm.trans hz)
        exact ⟨x', hself, List.mem_append_left _ hi⟩
      · exact ⟨z, (hother heq).trans hz, hi⟩
    · exact ⟨x', hself, List.mem_append_right _ (List.mem_singleton_self _)⟩

theorem Entrega.reenvio (hstep : Entrega p h s s') (hs : Salvo d h s)
    (hx : s.hilos[h]? = some x) (hmuertos : s.Muertos d x.enviados x.attempt)
    (hattempt : x.attempt < 3) : Reenvio d s' := by
  cases hstep with
  | vuelve => exact hs.setPc hx hmuertos hattempt (by simp) rfl rfl (Or.inl rfl)
  | lanza => exact hs.setPc hx hmuertos hattempt (by simp) rfl rfl (Or.inr rfl)
  | envia code => exact hs.sent hx hmuertos hattempt code

theorem Avance.reenvio (hstep : Avance p h s s') (hs : Salvo d h s)
    (hx : s.hilos[h]? = some x) (hmuertos : s.Muertos d x.enviados x.attempt)
    (hattempt : x.attempt < 3) : Reenvio d s' := by
  cases hstep with
  | entrega s' hs' => exact hs'.reenvio hs hx hmuertos hattempt
  | crea => exact hs.setPc hx hmuertos hattempt (by simp) rfl rfl (Or.inl rfl)
  | conecta id => exact hs.setPc hx hmuertos hattempt (by simp) rfl rfl (Or.inl rfl)

theorem Fase.muertos (hx : s.Fase d h x) (hpc : x.pc.enCiclo = true) (hne : x.pc ≠ .matando) :
    x.attempt < 3 ∧ s.Muertos d x.enviados x.attempt := by
  unfold Fase at hx
  split at hx
  · rename_i i hi
    rw [hi] at hpc
    cases hpc
  · rename_i hi
    exact absurd hi hne
  · rename_i hi
    rw [hi] at hpc
    cases hpc
  · exact hx

theorem Reenvio.enCiclo (hs : Reenvio d s) {pc : Pc} (hpc : s.pcOf h = some pc)
    (hciclo : pc.enCiclo = true) (hne : pc ≠ .matando) : ∃ x : Hilo, s.hilos[h]? = some x ∧
      s.Muertos d x.enviados x.attempt ∧ x.attempt < 3 := by
  obtain ⟨x, hx, rfl⟩ := pcOf_eq_some.mp hpc
  obtain ⟨hattempt, hmuertos⟩ := (hs.fases h x hx).muertos hciclo hne
  exact ⟨x, hx, hmuertos, hattempt⟩

theorem Reenvio.setPc (hs : Reenvio d s) {pc pc' : Pc} (hpc : s.pcOf h = some pc)
    (hciclo : pc.enCiclo = true) (hne : pc ≠ .matando) (hpc' : ∀ i, pc' ≠ .esperando i)
    (hhilos : s'.hilos = s.hilos.modify h fun x => { x with pc := pc' })
    (hintentos : s'.intentos = s.intentos) (hactivo : s'.activo = s.activo) :
    Reenvio d s' := by
  obtain ⟨x, hx, hmuertos, hattempt⟩ := hs.enCiclo hpc hciclo hne
  exact (hs.salvo h).setPc hx hmuertos hattempt hpc' hhilos hintentos (Or.inl hactivo)

theorem Reenvio.spawn (hs : Reenvio d s) (llamada : Llamada) :
    Salvo d s.hilos.length (s.spawn llamada) := by
  have hintentos : (s.spawn llamada).intentos = s.intentos := rfl
  refine (hs.salvo _).of_eq hintentos (Or.inl rfl) ?_ ?_
  · intro h' hne
    exact getElem?_spawn_of_ne hne llamada
  · intro x hx
    rw [List.getElem?_eq_none (Nat.le_refl _)] at hx
    cases hx

theorem three_pos : 0 < 3 := by decide

theorem muertos_nil (n : ℕ) : s.Muertos d [] n :=
  ⟨fun _ hi => absurd hi List.not_mem_nil, Nat.zero_le n⟩

theorem Reenvio.of_map (hs : Reenvio d s) {g : IntentoId → Intento → Intento}
    (hmap : ∀ i, s'.intentos[i]? = (s.intentos[i]?).map (g i))
    (hhilo : ∀ i y, (g i y).hilo = y.hilo) (hdevuelto : ∀ i y, (g i y).devuelto = y.devuelto)
    (hmuerto : ∀ i (y : Intento), s.intentos[i]? = some y → y.Muerto d → (g i y).Muerto d)
    (hactivo : s'.activo = s.activo) (hhilos : s'.hilos = s.hilos) : Reenvio d s' := by
  apply reenvio_of_salvo
  intro h
  refine (hs.salvo h).of_map hmap hhilo (fun i y _ _ => hdevuelto i y) hmuerto ?_ ?_ ?_
  · intro i y hi hy
    rw [hdevuelto]
    exact hs.activo i y (hactivo ▸ hi) hy
  · intro h' _
    rw [hhilos]
  · intro x hx
    exact ⟨x, hhilos ▸ hx, rfl⟩

theorem Reenvio.emit (hs : Reenvio d s) (msg : Msg) (hhilos : s'.hilos = s.hilos)
    (hintentos : s'.intentos = s.intentos.map fun y => y.receive d msg)
    (hactivo : s'.activo = s.activo) : Reenvio d s' := by
  refine hs.of_map (g := fun _ y => y.receive d msg) ?_ (fun _ y => y.hilo_receive d msg)
    (fun _ y => y.devuelto_receive d msg) (fun _ _ _ hy => hy.receive msg) hactivo hhilos
  intro i
  rw [hintentos, List.getElem?_map]

theorem Reenvio.modifyIntento (hs : Reenvio d s) (i : IntentoId) {f : Intento → Intento}
    (hhilo : ∀ y, (f y).hilo = y.hilo) (hdevuelto : ∀ y, (f y).devuelto = y.devuelto)
    (hi : ∀ y : Intento, s.intentos[i]? = some y → y.devuelto = false) :
    Reenvio d (s.modifyIntento i f) := by
  refine hs.of_map (g := fun j y => if i = j then f y else y) ?_ ?_ ?_ ?_ rfl rfl
  · intro j
    exact List.getElem?_modify f i s.intentos j
  · intro j y
    split
    · exact hhilo y
    · rfl
  · intro j y
    split
    · exact hdevuelto y
    · rfl
  · intro j y hy hmuerto
    split
    · rename_i heq
      rw [← heq] at hy
      exact absurd ((hi y hy).symm.trans hmuerto.devuelto) Bool.false_ne_true
    · exact hmuerto

theorem Reenvio.enEspera (hs : Reenvio d s) {i : IntentoId}
    (hpc : s.pcOf h = some (.esperando i)) :
    ∃ x : Hilo, s.hilos[h]? = some x ∧ x.attempt < 3 ∧ s.Esperando d h x i := by
  obtain ⟨x, hx, hxpc⟩ := pcOf_eq_some.mp hpc
  have hfase := hs.fases h x hx
  simp only [Fase, hxpc] at hfase
  exact ⟨x, hx, hfase⟩

theorem getElem?_returned (s : ColabRuntime) (i j : IntentoId) :
    (s.returned i).intentos[j]? =
      (s.intentos[j]?).map fun y => if i = j then y.giveBack else y :=
  List.getElem?_modify Intento.giveBack i s.intentos j

theorem Intento.Muerto.giveBack {y : Intento} (h : y.Muerto d) : y.giveBack.Muerto d :=
  ⟨rfl, h.sordo, h.callada, h.connLost, h.mudos⟩

/-- When the cell of `h` is over, the requests of other threads go on. -/
theorem Reenvio.siguen_returned (hs : Reenvio d s) {i : IntentoId}
    (hpc : s.pcOf h = some (.esperando i)) : Siguen d h s (s.returned i) := by
  obtain ⟨x, -, -, ⟨z, hz, hhilo, -⟩, -⟩ := hs.enEspera hpc
  refine siguen_of_map (s.getElem?_returned i) ?_ ?_ ?_
  · intro j y
    split <;> rfl
  · intro j y hy hne
    split
    · rename_i heq
      rw [← heq] at hy
      obtain rfl := Option.some.inj (hz.symm.trans hy)
      exact absurd hhilo hne
    · rfl
  · intro j y _ hmuerto
    split
    · exact Intento.Muerto.giveBack hmuerto
    · exact hmuerto

theorem Reenvio.returned (hs : Reenvio d s) {i : IntentoId}
    (hpc : s.pcOf h = some (.esperando i)) : Salvo d h (s.returned i) := by
  refine ⟨?_, ?_, ?_⟩
  · intro j y hj
    cases hj
  · intro h' x hne hx
    exact (hs.siguen_returned hpc).fase hne (hs.fases h' x hx)
  · intro j y hy
    rw [getElem?_returned, Option.map_eq_some_iff] at hy
    obtain ⟨z, hz, rfl⟩ := hy
    have hhilo : (if i = j then z.giveBack else z).hilo = z.hilo := by
      split <;> rfl
    rw [hhilo]
    exact hs.enviados j z hz

theorem Reenvio.killed (hs : Reenvio d s) (hx : s.hilos[h]? = some x) (hpc : x.pc = .matando) :
    Salvo d h (s.killed h) ∧
      (s.killed h).hilos[h]? = some { x with attempt := x.attempt + 1 } ∧ x.attempt < 3 ∧
      (s.killed h).Muertos d x.enviados (x.attempt + 1) := by
  have hfase := hs.fases h x hx
  simp only [Fase, hpc] at hfase
  have hintentos : (s.killed h).intentos = s.intentos := rfl
  refine ⟨?_, getElem?_killed hx, hfase.1, (siguen_of_eq h hintentos).muertos hfase.2⟩
  apply (hs.salvo h).of_eq hintentos (Or.inl rfl)
  · intro h' hne
    exact List.getElem?_modify_ne _ _ (Ne.symm hne)
  · intro z hz
    exact ⟨_, getElem?_killed hz, rfl⟩

theorem Cambio.reenvio {e : Evento} (hstep : Cambio p s e s') (hs : Reenvio p.toDart s)
    (hc : ∀ y ∈ s.intentos, y.Coherente p.toDart) : Reenvio p.toDart s' := by
  cases hstep with
  | nada => exact hs
  | start s' hs' =>
    exact hs'.reenvio (hs.spawn _) (getElem?_spawn_self s _) (muertos_nil 0) three_pos
  | execute code s' hs' =>
    exact hs'.reenvio (hs.spawn _) (getElem?_spawn_self s _) (muertos_nil 0) three_pos
  | close =>
    unfold ColabRuntime.close
    dsimp only
    split
    · exact (hs.spawn _).setPc (getElem?_spawn_self s _) (muertos_nil 0) three_pos (by simp) rfl rfl
        (Or.inl rfl)
    · exact (hs.spawn _).setPc (getElem?_spawn_self s _) (muertos_nil 0) three_pos (by simp) rfl rfl
        (Or.inl rfl)
  | interrumpe i hi =>
    exact hs.modifyIntento i (fun _ => rfl) (fun _ => rfl) fun y => hs.activo i y hi
  | creado h gen resp creado id hpc hid =>
    exact hs.setPc hpc rfl (by simp) (by simp) rfl rfl rfl
  | noCreado h gen resp creado kernelId hpc hid =>
    exact hs.setPc hpc rfl (by simp) (by simp) rfl rfl rfl
  | borrado h hpc => exact hs.setPc hpc rfl (by simp) (by simp) rfl rfl rfl
  | adelantado h gen k hpc hgen => exact hs.setPc hpc rfl (by simp) (by simp) rfl rfl rfl
  | listo h k s' hpc hs' =>
    obtain ⟨x, hx, hmuertos, hattempt⟩ := hs.enCiclo hpc rfl (by simp)
    refine hs'.reenvio ?_ hx ?_ hattempt
    · exact (hs.salvo h).of_eq rfl (Or.inl rfl) (fun _ _ => rfl) fun x hx => ⟨x, hx, rfl⟩
    · apply Siguen.muertos (siguen_of_eq h _) hmuertos
      rfl
  | falla h gen k hpc => exact hs.setPc hpc rfl (by simp) (by simp) rfl rfl rfl
  | viejoCerrado h s' hpc hs' =>
    obtain ⟨x, hx, hmuertos, hattempt⟩ := hs.enCiclo hpc rfl (by simp)
    exact hs'.reenvio (hs.salvo h) hx hmuertos hattempt
  | reintenta h x s' hx hpc hattempt hs' =>
    obtain ⟨hsalvo, hx', -, hmuertos⟩ := hs.killed hx hpc
    exact hs'.reenvio hsalvo hx' hmuertos hattempt
  | agotado h hpc =>
    obtain ⟨x, hx, hpc⟩ := pcOf_eq_some.mp hpc
    obtain ⟨hsalvo, hx', hattempt, hmuertos⟩ := hs.killed hx hpc
    exact hsalvo.mueve hx' rfl rfl (Or.inl rfl) (fun _ => rfl)
      (hmuertos.mono (Nat.succ_le_of_lt hattempt)).dropLast
  | cerrado h hpc => exact hs.setPc hpc rfl (by simp) (by simp) rfl rfl rfl
  | frame k raw x m hk hstate hm => exact hs.emit _ rfl rfl rfl
  | error k text x hk hstate hgen => exact hs.emit _ rfl rfl rfl
  | doneViejo k x hk hstate hgen =>
    apply reenvio_of_salvo
    intro h
    exact (hs.salvo h).of_eq rfl (Or.inl rfl) (fun _ _ => rfl) fun x hx => ⟨x, hx, rfl⟩
  | done k x hk hstate hgen => exact hs.emit _ rfl rfl rfl
  | vence h i x hpc hx hlisto =>
    obtain ⟨_, _, _, ⟨z, hz, _, hdevuelto⟩, _⟩ := hs.enEspera hpc
    refine hs.modifyIntento i (fun _ => rfl) (fun _ => rfl) ?_
    intro y hy
    obtain rfl := Option.some.inj (hz.symm.trans hy)
    exact hdevuelto
  | retorna h i y hpc hy hlisto hdead =>
    obtain ⟨x, hx, hattempt, -, antes, hantes, hmuertos⟩ := hs.enEspera hpc
    refine (hs.returned hpc).mueve hx rfl rfl (Or.inl rfl) (fun _ => rfl) ?_
    have hprevios := (hs.siguen_returned hpc).muertos hmuertos
    show Muertos _ _ x.enviados.dropLast 2
    rw [hantes, List.dropLast_concat]
    exact hprevios.mono (Nat.le_of_lt_succ hattempt)
  | muere h i y hpc hy hlisto hdead =>
    obtain ⟨x, hx, hattempt, -, antes, hantes, hmuertos⟩ := hs.enEspera hpc
    refine (hs.returned hpc).mueve hx rfl rfl (Or.inl rfl) (fun _ => rfl) ?_
    have hprevios := (hs.siguen_returned hpc).muertos hmuertos
    have hmuerto : (s.returned i).Muerto p.toDart i := by
      refine ⟨y.giveBack, ?_, (hc y (List.mem_of_getElem? hy)).muerto hlisto hdead⟩
      rw [getElem?_returned, hy, Option.map_some, if_pos rfl]
    refine ⟨hattempt, ?_, ?_⟩
    · show ∀ j ∈ x.enviados, _
      rw [hantes]
      intro j hj
      rcases List.mem_append.mp hj with hj | hj
      · exact hprevios.muerto j hj
      · obtain rfl := List.mem_singleton.mp hj
        exact hmuerto
    · show x.enviados.length ≤ x.attempt + 1
      rw [hantes, List.length_append]
      exact Nat.succ_le_succ hprevios.length

theorem Cambio.coherente {e : Evento} (hstep : Cambio p s e s')
    (hc : ∀ y ∈ s.intentos, y.Coherente p.toDart) : ∀ y ∈ s'.intentos, y.Coherente p.toDart := by
  apply hstep.forall_intentos hc
  · exact Intento.coherente_nuevo p.toDart
  · exact fun y hy => hy.interrupt
  · exact fun y hy => hy.expire
  · exact fun y hy => hy.giveBack
  · exact fun y hy => hy.receive_closed
  · exact fun y text hy => hy.receive_error text
  · exact fun k raw m _ _ y _ hy => hy.receive_frame m

theorem correr_reenvio (p : Plataforma) (es : List Evento) :
    Reenvio p.toDart (correr p {} es) ∧
      ∀ y ∈ (correr p {} es).intentos, y.Coherente p.toDart := by
  apply Run.invariant (P := fun s => Reenvio p.toDart s ∧
    ∀ y ∈ s.intentos, y.Coherente p.toDart)
  · intro s e hs
    have hstep := paso_cambio p s e
    exact ⟨hstep.reenvio hs.1 hs.2, hstep.coherente hs.2⟩
  · refine ⟨⟨?_, ?_, ?_⟩, ?_⟩
    · intro i y hi
      cases hi
    · intro h x hx
      cases hx
    · intro i y hy
      cases hy
    · intro y hy
      cases hy

theorem Fase.acabada (hx : s.Fase d h x) : s.Muertos d x.enviados.dropLast 2 := by
  unfold Fase at hx
  split at hx
  · obtain ⟨hattempt, -, antes, hantes, hmuertos⟩ := hx
    rw [hantes, List.dropLast_concat]
    exact hmuertos.mono (Nat.le_of_lt_succ hattempt)
  · exact (hx.2.mono (Nat.succ_le_of_lt hx.1)).dropLast
  · exact hx
  · exact (hx.2.mono (Nat.le_of_lt_succ (Nat.lt_succ_of_lt hx.1))).dropLast

/-- In every run a call sends its code at most three times, and all requests but the last
came back silent and with their connection lost. -/
theorem reenvio_correr (p : Plataforma) (es : List Evento) (h : HiloId) (x : Hilo)
    (hx : (correr p {} es).hilos[h]? = some x) :
    (∀ i (y : Intento), (correr p {} es).intentos[i]? = some y → y.hilo = h →
      i ∈ x.enviados) ∧
    x.enviados.length ≤ 3 ∧ ∀ i ∈ x.enviados.dropLast, (correr p {} es).Muerto p.toDart i := by
  obtain ⟨hs, -⟩ := correr_reenvio p es
  have hmuertos := (hs.fases h x hx).acabada
  refine ⟨?_, ?_, hmuertos.muerto⟩
  · intro i y hy hhilo
    obtain ⟨z, hz, hi⟩ := hs.enviados i y hy
    rw [hhilo] at hz
    obtain rfl := Option.some.inj (hx.symm.trans hz)
    exact hi
  · have hlen := hmuertos.length
    rw [List.length_dropLast] at hlen
    omega

def reconectado : List Evento := [.socketDone 0, .retorno 0, .sinkCerrado 0, .socketListo 0]

theorem reenvio_perdido : (correr ejemplo {} (conectado ++ reconectado)).Muerto ejemplo.toDart 0 :=
  (reenvio_correr ejemplo (conectado ++ reconectado) 0 _ rfl).2.2 0 (List.mem_singleton_self 0)

/-- The kernel said it was busy with the first request when its socket dropped. -/
theorem reenvio_busy : ¬ ∀ (p : Plataforma) (es : List Evento) (h : HiloId) (x : Hilo),
    (correr p {} es).hilos[h]? = some x → x.enviados.length ≤ 3 ∧
      ∀ i ∈ x.enviados.dropLast, ∀ y : Intento, (correr p {} es).intentos[i]? = some y →
        ∀ m ∈ y.recibidos, m.parentId ≠ some y.msgId := by
  intro hall
  have hrun := (hall ejemplo (conectado ++ .frame 0 (.texto "busy de a") :: reconectado) 0 _
    rfl).2 0 (List.mem_singleton_self 0) _ rfl _ (List.mem_singleton_self _)
  exact hrun rfl

end ColabRuntime
end Nerea.Colab
