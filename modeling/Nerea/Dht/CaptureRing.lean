import Nerea.Dht.MetaLoop
import Nerea.Shared.Recency

/-!
# The queue of captures

The loop puts a captured hash in front of a bounded queue, and makes room in it before it
looks whether the hash is there: a full queue loses its last capture to a hash that is not
new. The two readers take the captures from the back, where the oldest are.
-/

set_option autoImplicit false

namespace Nerea.Dht

/-- `primeras` keeps every hash captured so far, the one first captured last in front. -/
structure Anillo where
  cap : List Captura
  primeras : List Texto

namespace Anillo

-- `to_lowercase`, of which nothing is used.
variable (toLowercase : Texto → Texto)

def tomar (limit : ℤ) (len : ℕ) : ℕ := if limit ≤ 0 then len else limit.toNat

def contains (q t : Texto) : Bool := t.tails.any fun u => q.isPrefixOf u

def coincide (texto : Texto) (c : Captura) : Bool :=
  let q := toLowercase (Whitespace.trimBoth Whitespace.isWhiteSpace texto)
  q.isEmpty || contains q c.hash || contains q (toLowercase c.nombre)

def capturas (cap : List Captura) (limit : ℤ) : List Captura :=
  cap.reverse.take (tomar limit cap.length)

def capturasFiltradas (cap : List Captura) (texto : Texto) (limit : ℤ) : List Captura :=
  (cap.reverse.filter (coincide toLowercase texto)).take (tomar limit cap.length)

inductive Suceso where
  | captura (hash : Texto)
  | resuelve (h : Hallado)
  | capturas (limit : ℤ)
  | capturasFiltradas (texto : Texto) (limit : ℤ)

def paso (s : Anillo) : Suceso → Anillo
  | .captura hash =>
    { cap := MetaLoop.registra s.cap hash
      primeras := Recency.note hash s.primeras }
  | .resuelve h => { s with cap := MetaLoop.marcaResuelto h s.cap }
  | .capturas _ => s
  | .capturasFiltradas _ _ => s

def inicial : Anillo := ⟨[], []⟩

/-- The queue holds the hashes first captured last, as many as there is room for. -/
def Guarda (s : Anillo) : Prop :=
  s.cap.map Captura.hash = s.primeras.take TOPE_CAPTURAS

/-- What the queue and its readers promise of a step. -/
def Cumple (s : Anillo) : Suceso → Prop
  | .captura hash => Guarda (s.paso (.captura hash)) ∧
    (hash ∈ s.cap.map Captura.hash → s.cap ⊆ (s.paso (.captura hash)).cap)
  | .resuelve h => Guarda (s.paso (.resuelve h))
  | .capturas limit => 0 < limit →
    (capturas s.cap limit).Perm (s.cap.take limit.toNat)
  | .capturasFiltradas texto limit => 0 < limit →
    (capturasFiltradas toLowercase s.cap texto limit).Perm
      ((s.cap.filter (coincide toLowercase texto)).take limit.toNat)

/-- There is room or the hash is new, and a reader asks for all there is. -/
def Alcanza (s : Anillo) : Suceso → Prop
  | .captura hash => s.cap.length < TOPE_CAPTURAS ∨ hash ∉ s.primeras
  | .resuelve _ => True
  | .capturas limit => 0 < limit → s.cap.length ≤ limit.toNat
  | .capturasFiltradas texto limit => 0 < limit →
    (s.cap.filter (coincide toLowercase texto)).length ≤ limit.toNat

variable {s : Anillo} {toLowercase}

theorem any_hash_iff {cap : List Captura} {hash : Texto} :
    cap.any (·.hash == hash) = true ↔ hash ∈ cap.map Captura.hash := by
  rw [List.any_eq_true, List.mem_map]
  constructor
  · intro h
    obtain ⟨c, hc, heq⟩ := h
    exact ⟨c, hc, beq_iff_eq.mp heq⟩
  · intro h
    obtain ⟨c, hc, heq⟩ := h
    exact ⟨c, hc, beq_iff_eq.mpr heq⟩

theorem map_hash_registra (cap : List Captura) (hash : Texto) :
    (MetaLoop.registra cap hash).map Captura.hash = Recency.note hash
      (if TOPE_CAPTURAS ≤ cap.length then (cap.map Captura.hash).dropLast
        else cap.map Captura.hash) := by
  rw [← List.map_dropLast, ← apply_ite (List.map Captura.hash)]
  unfold MetaLoop.registra
  dsimp only
  generalize (if TOPE_CAPTURAS ≤ cap.length then cap.dropLast else cap) = resto
  split
  · rw [Recency.note_of_mem (any_hash_iff.mp ‹_›)]
  · rename_i hany
    rw [Recency.note_of_not_mem fun hmem => hany (any_hash_iff.mpr hmem)]
    rfl

theorem registra_of_mem {cap : List Captura} {hash : Texto}
    (hroom : cap.length < TOPE_CAPTURAS) (hmem : hash ∈ cap.map Captura.hash) :
    MetaLoop.registra cap hash = cap := by
  unfold MetaLoop.registra
  rw [if_neg (Nat.not_le.mpr hroom)]
  exact if_pos (any_hash_iff.mpr hmem)

theorem length_cap (hs : Guarda s) : s.cap.length = (s.primeras.take TOPE_CAPTURAS).length := by
  rw [← hs, List.length_map]

theorem guarda_room (hs : Guarda s) (hroom : s.cap.length < TOPE_CAPTURAS) (hash : Texto) :
    Guarda (s.paso (.captura hash)) := by
  unfold Guarda paso
  dsimp only
  rw [map_hash_registra, if_neg (Nat.not_le.mpr hroom), hs]
  have hlen := length_cap hs
  rw [Recency.take_eq_self (by omega)]
  rw [List.length_take] at hlen
  symm
  apply List.take_of_length_le
  unfold Recency.note
  split
  · omega
  · rw [List.length_cons]
    omega

theorem guarda_new (hs : Guarda s) (hfull : TOPE_CAPTURAS ≤ s.cap.length) {hash : Texto}
    (hnew : hash ∉ s.primeras) : Guarda (s.paso (.captura hash)) := by
  unfold Guarda paso
  dsimp only
  rw [map_hash_registra, if_pos hfull, hs, Recency.note_of_not_mem hnew, Recency.note_of_not_mem]
  · apply Recency.dropLast_take (by decide)
    rw [← length_cap hs]
    exact hfull
  · intro hmem
    exact hnew (List.mem_of_mem_take (List.dropLast_subset _ hmem))

/-- A known hash takes the place of the last capture, or nothing does. -/
theorem not_guarda_known (hs : Guarda s) (hfull : TOPE_CAPTURAS ≤ s.cap.length) {hash : Texto}
    (hknown : hash ∈ s.primeras) : ¬ Guarda (s.paso (.captura hash)) := by
  unfold Guarda paso
  dsimp only
  intro h
  rw [map_hash_registra, if_pos hfull, Recency.note_of_mem hknown, ← hs] at h
  rw [← List.length_map Captura.hash] at hfull
  generalize s.cap.map Captura.hash = l at h hfull
  have htope : 2 ≤ TOPE_CAPTURAS := by decide
  unfold Recency.note at h
  split at h
  · have hlen := congrArg List.length h
    rw [List.length_dropLast] at hlen
    omega
  · rename_i hmem
    rcases l with _ | ⟨x, _ | ⟨y, l⟩⟩
    · rw [List.length_nil] at hfull
      omega
    · rw [List.length_singleton] at hfull
      omega
    · rw [List.dropLast_cons_cons] at h hmem
      have hx : hash = x := List.head_eq_of_cons_eq h
      rw [hx] at hmem
      exact hmem List.mem_cons_self

theorem captura_iff (hs : Guarda s) (hash : Texto) :
    Cumple toLowercase s (.captura hash) ↔ Alcanza toLowercase s (.captura hash) := by
  constructor
  · intro h
    by_contra hno
    obtain ⟨hfull, hknown⟩ := not_or.mp hno
    exact not_guarda_known hs (Nat.not_lt.mp hfull) (not_not.mp hknown) h.1
  · intro h
    by_cases hroom : s.cap.length < TOPE_CAPTURAS
    · refine ⟨guarda_room hs hroom hash, fun hmem => ?_⟩
      change s.cap ⊆ MetaLoop.registra s.cap hash
      rw [registra_of_mem hroom hmem]
      exact List.Subset.refl _
    · have hnew := h.resolve_left hroom
      refine ⟨guarda_new hs (Nat.not_lt.mp hroom) hnew, fun hmem => ?_⟩
      rw [hs] at hmem
      exact absurd (List.mem_of_mem_take hmem) hnew

theorem map_hash_marcaResuelto (h : Hallado) (cap : List Captura) :
    (MetaLoop.marcaResuelto h cap).map Captura.hash = cap.map Captura.hash := by
  induction cap with
  | nil => rfl
  | cons c cap ih =>
    unfold MetaLoop.marcaResuelto
    split
    · rfl
    · rw [List.map_cons, List.map_cons, ih]

theorem guarda_resuelve (hs : Guarda s) (h : Hallado) : Guarda (s.paso (.resuelve h)) := by
  unfold Guarda paso
  dsimp only
  rw [map_hash_marcaResuelto]
  exact hs

theorem nodup_cap (hs : Guarda s) (hprimeras : s.primeras.Nodup) : s.cap.Nodup := by
  apply List.Nodup.of_map Captura.hash
  rw [hs]
  exact hprimeras.sublist (List.take_sublist _ _)

theorem capturas_iff {cap : List Captura} (hcap : cap.Nodup) (limit : ℤ) (hlimit : 0 < limit) :
    (capturas cap limit).Perm (cap.take limit.toNat) ↔ cap.length ≤ limit.toNat := by
  unfold capturas tomar
  rw [if_neg (by omega)]
  exact Recency.take_reverse_perm_iff hcap (by omega)

theorem capturasFiltradas_iff {cap : List Captura} (hcap : cap.Nodup) (texto : Texto) (limit : ℤ)
    (hlimit : 0 < limit) :
    (capturasFiltradas toLowercase cap texto limit).Perm
      ((cap.filter (coincide toLowercase texto)).take limit.toNat) ↔
    (cap.filter (coincide toLowercase texto)).length ≤ limit.toNat := by
  unfold capturasFiltradas tomar
  rw [if_neg (by omega), List.filter_reverse]
  exact Recency.take_reverse_perm_iff (hcap.filter _) (by omega)

theorem cumple_iff (hs : Guarda s) (hprimeras : s.primeras.Nodup) (e : Suceso) :
    Cumple toLowercase s e ↔ Alcanza toLowercase s e := by
  cases e with
  | captura hash => exact captura_iff hs hash
  | resuelve h => exact ⟨fun _ => trivial, fun _ => guarda_resuelve hs h⟩
  | capturas limit =>
    exact forall_congr' (capturas_iff (nodup_cap hs hprimeras) limit)
  | capturasFiltradas texto limit =>
    exact forall_congr' (capturasFiltradas_iff (nodup_cap hs hprimeras) texto limit)

theorem paso_guarda (hs : Guarda s) (hprimeras : s.primeras.Nodup) {e : Suceso}
    (he : Alcanza toLowercase s e) : Guarda (s.paso e) ∧ (s.paso e).primeras.Nodup := by
  cases e with
  | captura hash =>
    exact ⟨((captura_iff hs hash).mpr he).1, Recency.nodup_note hprimeras hash⟩
  | resuelve h => exact ⟨guarda_resuelve hs h, hprimeras⟩
  | capturas limit => exact ⟨hs, hprimeras⟩
  | capturasFiltradas texto limit => exact ⟨hs, hprimeras⟩

/-- In every run the queue and its readers keep their promises exactly when no hash is captured
again while the queue is full and nobody asks for less than there is. -/
theorem capture_ring_iff (toLowercase : Texto → Texto) (es : List Suceso) :
    Run.AllSteps paso (Cumple toLowercase) inicial es ↔
      Run.AllSteps paso (Alcanza toLowercase) inicial es := by
  apply Run.allSteps_iff_of_invariant (I := fun s => Guarda s ∧ s.primeras.Nodup)
  · intro s e hs he
    exact paso_guarda hs.1 hs.2 he
  · intro s e hs
    exact cumple_iff hs.1 hs.2 e
  · exact ⟨rfl, List.nodup_nil⟩

/-- Of two captures the reader that asks for one gets the older. -/
theorem capturas_oldest :
    ¬ ∀ es, Run.AllSteps paso (Cumple (List.map Char.toLower)) inicial es := by
  intro h
  obtain ⟨-, -, hread, -⟩ := h [.captura (List.replicate 40 'a'), .captura (List.replicate 40 'b'),
    .capturas 1]
  have hperm := hread Int.one_pos
  revert hperm
  decide

theorem run_resuelve (hs : List Hallado) (s : Anillo) :
    Run.run paso s (hs.map .resuelve) =
      { s with cap := hs.foldl (fun cap h => MetaLoop.marcaResuelto h cap) s.cap } := by
  induction hs generalizing s with
  | nil => rfl
  | cons h hs ih => exact ih (s.paso (.resuelve h))

/-- A step of the loop does to the queue what some steps here do. -/
theorem exists_run_paso (m : MaxMeta) (l : MetaLoop) (e : MetaLoop.Evento) (primeras : List Texto) :
    ∃ es, (Run.run paso ⟨l.capturas, primeras⟩ es).cap = (l.paso m e).capturas := by
  cases e with
  | inserta ahora =>
    unfold MetaLoop.paso MetaLoop.inserta
    dsimp only
    split
    · rename_i hash _
      exact ⟨[.captura hash], rfl⟩
    · exact ⟨[], rfl⟩
  | cosecha fecha =>
    unfold MetaLoop.paso MetaLoop.cosecha
    dsimp only
    split
    · exact ⟨_, by rw [run_resuelve]⟩
    · exact ⟨[], rfl⟩
  | recibe hash =>
    refine ⟨[], ?_⟩
    unfold MetaLoop.paso MetaLoop.recibe
    dsimp only
    split
    · split
      · rfl
      · split <;> rfl
    · rfl
  | indexa =>
    refine ⟨[], ?_⟩
    unfold MetaLoop.paso MetaLoop.indexa
    dsimp only
    split
    · split <;> rfl
    · rfl
  | reordena pendientes =>
    refine ⟨[], ?_⟩
    unfold MetaLoop.paso
    dsimp only
    split <;> rfl
  | start | abre | sondea | vence | desconecta | anuncia =>
    refine ⟨[], ?_⟩
    simp only [MetaLoop.paso, MetaLoop.start, MetaLoop.abre, MetaLoop.sondea, MetaLoop.vence,
      MetaLoop.desconecta, MetaLoop.anuncia]
    split <;> rfl
  | stop | pollNuevos | agrega | lista => exact ⟨[], rfl⟩

theorem exists_run (m : MaxMeta) (l : MetaLoop) (es : List MetaLoop.Evento) (s : Anillo)
    (hs : s.cap = l.capturas) :
    ∃ es', (Run.run paso s es').cap = (Run.run (MetaLoop.paso m) l es).capturas := by
  induction es generalizing l s with
  | nil => exact ⟨[], hs⟩
  | cons e es ih =>
    obtain ⟨es₁, h₁⟩ := exists_run_paso m l e s.primeras
    obtain ⟨es₂, h₂⟩ := ih (l.paso m e) _ h₁
    refine ⟨es₁ ++ es₂, ?_⟩
    rw [Run.run_append]
    rw [← hs] at h₂
    exact h₂

/-- The queue of a run of the loop is that of a run here. -/
theorem exists_run_new (m : MaxMeta) (hallados : List Hallado) (sesion : Sesion)
    (es : List MetaLoop.Evento) : ∃ es', (Run.run paso inicial es').cap =
      (Run.run (MetaLoop.paso m) (MetaLoop.new hallados sesion) es).capturas :=
  exists_run m _ es inicial rfl

end Anillo
end Nerea.Dht
