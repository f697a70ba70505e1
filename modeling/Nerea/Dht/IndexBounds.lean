import Nerea.Dht.MetaLoop
import Nerea.Shared.Run

/-!
# The index and the pending map stay bounded

The index holds distinct hashes, at most `TOPE_INDICE`, and they are the last ones inserted;
the map holds at most `max_meta` hashes, none of them indexed. Every step of an iteration
keeps this together with what the steps before it left in hand: an admitted hash with room for
it, and a harvest of distinct hashes that are neither indexed nor pending.
-/

set_option autoImplicit false

namespace Nerea.Dht.MetaLoop

variable {m : MaxMeta} {s s' : MetaLoop} {hash : Texto} {hallados cosechados : List Hallado}
  {pendientes : List (Texto × ℕ)}

theorem yaIndexado_iff :
    yaIndexado hallados hash = true ↔ hash ∈ hallados.map Hallado.infoHash := by
  simp [yaIndexado]

theorem yaIndexado_eq_false :
    yaIndexado hallados hash = false ↔ hash ∉ hallados.map Hallado.infoHash := by
  rw [← yaIndexado_iff, Bool.not_eq_true]

theorem mem_quita {x : Texto × ℕ} : x ∈ quita pendientes hash ↔ x ∈ pendientes ∧ x.1 ≠ hash := by
  simp [quita]

theorem length_quita_le : (quita pendientes hash).length ≤ pendientes.length :=
  List.length_filter_le _ _

theorem length_quita_lt {x : Texto × ℕ} (h : x ∈ pendientes) :
    (quita pendientes x.1).length < pendientes.length := by
  apply List.length_filter_lt_length_iff_exists.mpr
  exact ⟨x, h, by simp⟩

theorem masViejo_mem {x : Texto × ℕ} (h : masViejo pendientes = some x) : x ∈ pendientes := by
  induction pendientes generalizing x with
  | nil => cases h
  | cons y ys ih =>
    rw [masViejo] at h
    split at h
    · cases h
      exact List.mem_cons_self
    · rename_i z hz
      split at h
      · cases h
        exact List.mem_cons_self
      · cases h
        exact List.mem_cons_of_mem _ (ih hz)

theorem masViejo_eq_none (h : masViejo pendientes = none) : pendientes = [] := by
  cases pendientes with
  | nil => rfl
  | cons y ys =>
    rw [masViejo] at h
    split at h
    · cases h
    · split at h <;> cases h

theorem mem_of_mem_desaloja {x : Texto × ℕ} (h : x ∈ desaloja m pendientes) : x ∈ pendientes := by
  unfold desaloja at h
  split at h
  · split at h
    · exact h
    · exact (mem_quita.mp h).1
  · exact h

/-- A full map gives up its oldest hash, so there is room for one. -/
theorem length_desaloja_lt (h : pendientes.length ≤ m.val) :
    (desaloja m pendientes).length < m.val := by
  have hpos := m.diez
  unfold desaloja
  split
  · rename_i hfull
    split
    · rename_i hnone
      rw [masViejo_eq_none hnone, List.length_nil]
      omega
    · rename_i viejo t hviejo
      exact Nat.lt_of_lt_of_le (length_quita_lt (masViejo_mem hviejo)) h
  · rename_i hroom
    omega

theorem mem_foldl_quita {x : Texto × ℕ} :
    x ∈ cosechados.foldl (fun ps h => quita ps h.infoHash) pendientes ↔
      x ∈ pendientes ∧ ∀ h ∈ cosechados, x.1 ≠ h.infoHash := by
  induction cosechados generalizing pendientes with
  | nil => simp
  | cons h hs ih =>
    rw [List.foldl_cons, ih, mem_quita, List.forall_mem_cons, and_assoc]

theorem length_foldl_quita_le :
    (cosechados.foldl (fun ps h => quita ps h.infoHash) pendientes).length ≤
      pendientes.length := by
  induction cosechados generalizing pendientes with
  | nil => exact Nat.le_refl _
  | cons h hs ih => exact Nat.le_trans ih length_quita_le

theorem hallado_eq_some {fecha : Texto → ℤ} {t : Torrent} {h : Hallado}
    (ht : hallado fecha t = some h) : h.infoHash = t.infoHash := by
  unfold hallado at ht
  split at ht
  · cases ht
  · split at ht
    · cases ht
    · cases ht
      rfl

theorem mem_cosechar {fecha : Texto → ℤ} {ts : List Torrent} {h : Hallado} :
    h ∈ cosechar hallados fecha ts ↔
      ∃ t ∈ ts, yaIndexado hallados t.infoHash = false ∧ hallado fecha t = some h := by
  rw [cosechar, List.mem_filterMap]
  apply exists_congr
  intro t
  cases yaIndexado hallados t.infoHash with
  | false => simp
  | true => simp

theorem cosechar_map_sublist (fecha : Texto → ℤ) (ts : List Torrent) :
    ((cosechar hallados fecha ts).map Hallado.infoHash).Sublist (ts.map Torrent.infoHash) := by
  induction ts with
  | nil => exact List.Sublist.refl _
  | cons t ts ih =>
    have hrest : ((cosechar hallados fecha ts).map Hallado.infoHash).Sublist
        ((t :: ts).map Torrent.infoHash) := ih.cons _
    rw [cosechar, List.filterMap_cons]
    split
    · exact hrest
    · rename_i h hsome
      split at hsome
      · cases hsome
      · rw [List.map_cons, List.map_cons, hallado_eq_some hsome]
        exact ih.cons_cons _

theorem foldl_empuja (hnodup : (cosechados.map Hallado.infoHash).Nodup)
    (hnew : ∀ h ∈ cosechados, yaIndexado hallados h.infoHash = false) :
    cosechados.foldl empuja hallados = hallados ++ cosechados := by
  induction cosechados generalizing hallados with
  | nil => rw [List.foldl_nil, List.append_nil]
  | cons h hs ih =>
    rw [List.map_cons, List.nodup_cons] at hnodup
    have hpush : empuja hallados h = hallados ++ [h] := by
      rw [empuja, hnew h List.mem_cons_self]
      rfl
    rw [List.foldl_cons, hpush, ih hnodup.2, List.append_assoc]
    · rfl
    · intro h' hh'
      rw [yaIndexado_eq_false, List.map_append, List.mem_append, not_or]
      refine ⟨yaIndexado_eq_false.mp (hnew h' (List.mem_cons_of_mem _ hh')), ?_⟩
      intro hmem
      rw [List.map_singleton, List.mem_singleton] at hmem
      exact hnodup.1 (hmem ▸ List.mem_map_of_mem hh')

structure Acotado (m : MaxMeta) (s : MetaLoop) : Prop where
  distintos : (s.hallados.map Hallado.infoHash).Nodup
  tope : s.hallados.length ≤ TOPE_INDICE
  recorte : BoundedLog.Holds TOPE_INDICE s.insertados s.hallados
  pendientes : s.pendientes.length ≤ m.val
  disjuntos : ∀ x ∈ s.pendientes, yaIndexado s.hallados x.1 = false

/-- What a step of the iteration hands to the next. -/
structure EnMano (m : MaxMeta) (s : MetaLoop) : Prop where
  admite : ∀ hash, s.fase = .admite hash →
    s.pendientes.length < m.val ∧ yaIndexado s.hallados hash = false
  nuevos : s.fase = .indexa → (s.cosechados.map Hallado.infoHash).Nodup ∧
    ∀ h ∈ s.cosechados, yaIndexado s.hallados h.infoHash = false
  pendientes : s.fase = .indexa → ∀ x ∈ s.pendientes, ∀ h ∈ s.cosechados, x.1 ≠ h.infoHash

theorem Acotado.of_pendientes (hs : Acotado m s) (hhallados : s'.hallados = s.hallados)
    (hinsertados : s'.insertados = s.insertados)
    (hmem : ∀ x ∈ s'.pendientes, x ∈ s.pendientes)
    (hlength : s'.pendientes.length ≤ s.pendientes.length) : Acotado m s' where
  distintos := hhallados ▸ hs.distintos
  tope := hhallados ▸ hs.tope
  recorte := by
    rw [hhallados, hinsertados]
    exact hs.recorte
  pendientes := Nat.le_trans hlength hs.pendientes
  disjuntos := fun x hx => hhallados ▸ hs.disjuntos x (hmem x hx)

theorem enMano_of_fase (hadmite : ∀ hash, s.fase ≠ .admite hash) (hindexa : s.fase ≠ .indexa) :
    EnMano m s :=
  ⟨fun hash h => absurd h (hadmite hash), fun h => absurd h hindexa, fun h => absurd h hindexa⟩

theorem enMano_of_anuncia (h : s.fase = .anuncia) : EnMano m s := by
  apply enMano_of_fase
  · rw [h]
    exact nofun
  · rw [h]
    exact nofun

def Coherente (m : MaxMeta) (s : MetaLoop) : Prop := Acotado m s ∧ EnMano m s

/-- The step neither works on the index or the map nor leaves anything in hand. -/
theorem Coherente.of_fase (h : Coherente m s) (hhallados : s'.hallados = s.hallados)
    (hinsertados : s'.insertados = s.insertados) (hpendientes : s'.pendientes = s.pendientes)
    (hadmite : ∀ hash, s'.fase ≠ .admite hash) (hindexa : s'.fase ≠ .indexa) :
    Coherente m s' := by
  refine ⟨h.1.of_pendientes hhallados hinsertados ?_ ?_, enMano_of_fase hadmite hindexa⟩
  · exact fun x hx => hpendientes ▸ hx
  · rw [hpendientes]

theorem Coherente.recibe (h : Coherente m s) (hash : Texto) : Coherente m (s.recibe m hash) := by
  unfold MetaLoop.recibe
  split
  · split
    · exact h
    · split
      · exact h
      · rename_i hnew
        have hroom := length_desaloja_lt h.1.pendientes
        have hacotado : Acotado m
            { s with fase := .admite hash, pendientes := desaloja m s.pendientes } := by
          constructor
          · exact h.1.distintos
          · exact h.1.tope
          · exact h.1.recorte
          · exact Nat.le_of_lt hroom
          · exact fun x hx => h.1.disjuntos x (mem_of_mem_desaloja hx)
        refine ⟨hacotado, ?_, nofun, nofun⟩
        intro hash' heq
        cases heq
        exact ⟨hroom, Bool.eq_false_iff.mpr hnew⟩
  · exact h

theorem Coherente.inserta (h : Coherente m s) (ahora : ℕ) : Coherente m (s.inserta ahora) := by
  unfold MetaLoop.inserta
  split
  · rename_i hash hfase
    obtain ⟨hroom, hnew⟩ := h.2.admite hash hfase
    refine ⟨⟨h.1.distintos, h.1.tope, h.1.recorte, ?_, ?_⟩, enMano_of_fase nofun nofun⟩
    · have hle : (quita s.pendientes hash).length ≤ s.pendientes.length := length_quita_le
      rw [List.length_append, List.length_singleton]
      omega
    · intro x hx
      rcases List.mem_append.mp hx with hx | hx
      · exact h.1.disjuntos x (mem_quita.mp hx).1
      · rw [List.mem_singleton.mp hx]
        exact hnew
  · exact h

theorem Coherente.vence (h : Coherente m s) (ahora : ℕ) : Coherente m (s.vence ahora) := by
  unfold MetaLoop.vence
  split
  · refine ⟨h.1.of_pendientes rfl rfl ?_ ?_, enMano_of_fase nofun nofun⟩
    · exact fun x hx => List.mem_of_mem_filter hx
    · exact List.length_filter_le _ _
  · exact h

theorem Coherente.cosecha (h : Coherente m s) (fecha : Texto → ℤ) :
    Coherente m (s.cosecha fecha) := by
  unfold MetaLoop.cosecha
  split
  · refine ⟨h.1.of_pendientes rfl rfl ?_ length_foldl_quita_le, nofun, fun _ => ⟨?_, ?_⟩, ?_⟩
    · exact fun x hx => (mem_foldl_quita.mp hx).1
    · exact s.sesion.distintos.sublist (cosechar_map_sublist fecha _)
    · intro h' hh'
      obtain ⟨t, -, hnew, ht⟩ := mem_cosechar.mp hh'
      rw [hallado_eq_some ht]
      exact hnew
    · exact fun _ x hx h' hh' => (mem_foldl_quita.mp hx).2 h' hh'
  · exact h

theorem Coherente.indexa (h : Coherente m s) : Coherente m s.indexa := by
  unfold MetaLoop.indexa
  split
  · rename_i hfase
    obtain ⟨hnodup, hnew⟩ := h.2.nuevos hfase
    have hpend := h.2.pendientes hfase
    split
    · exact h.of_fase rfl rfl rfl nofun nofun
    · rw [foldl_empuja hnodup hnew, List.drop_left]
      have hsub := (BoundedLog.trim_sublist TOPE_INDICE (s.hallados ++ s.cosechados)).map
        Hallado.infoHash
      have hdistintos : ((BoundedLog.trim TOPE_INDICE (s.hallados ++ s.cosechados)).map
          Hallado.infoHash).Nodup := by
        apply List.Nodup.sublist hsub
        rw [List.map_append]
        apply List.Nodup.append h.1.distintos hnodup
        intro hash hmem hmem'
        obtain ⟨h', hh', rfl⟩ := List.mem_map.mp hmem'
        exact yaIndexado_eq_false.mp (hnew h' hh') hmem
      have hdisjuntos : ∀ x ∈ s.pendientes, yaIndexado
          (BoundedLog.trim TOPE_INDICE (s.hallados ++ s.cosechados)) x.1 = false := by
        intro x hx
        rw [yaIndexado_eq_false]
        intro hmem
        have hmem' := hsub.subset hmem
        rw [List.map_append, List.mem_append] at hmem'
        rcases hmem' with hold | hbatch
        · exact yaIndexado_eq_false.mp (h.1.disjuntos x hx) hold
        · obtain ⟨h', hh', heq⟩ := List.mem_map.mp hbatch
          exact hpend x hx h' hh' heq.symm
      exact ⟨⟨hdistintos, BoundedLog.length_trim_le _ _,
        h.1.recorte.append s.cosechados, h.1.pendientes, hdisjuntos⟩, enMano_of_anuncia rfl⟩
  · exact h

theorem Coherente.of_iguales (h : Coherente m s) (hhallados : s'.hallados = s.hallados)
    (hinsertados : s'.insertados = s.insertados) (hpendientes : s'.pendientes = s.pendientes)
    (hfase : s'.fase = s.fase) (hcosechados : s'.cosechados = s.cosechados) :
    Coherente m s' := by
  refine ⟨h.1.of_pendientes hhallados hinsertados ?_ ?_, ?_, ?_, ?_⟩
  · exact fun x hx => hpendientes ▸ hx
  · rw [hpendientes]
  · rw [hfase, hpendientes, hhallados]
    exact h.2.admite
  · rw [hfase, hcosechados, hhallados]
    exact h.2.nuevos
  · rw [hfase, hpendientes, hcosechados]
    exact h.2.pendientes

theorem Coherente.start (h : Coherente m s) : Coherente m s.start := by
  unfold MetaLoop.start
  split
  · refine ⟨h.1.of_pendientes rfl rfl nofun (Nat.zero_le _), enMano_of_fase nofun nofun⟩
  · exact h

theorem Coherente.abre (h : Coherente m s) (sesion : Bool) : Coherente m (s.abre sesion) := by
  unfold MetaLoop.abre
  split
  · cases sesion with
    | true => exact h.of_fase rfl rfl rfl nofun nofun
    | false => exact h.of_fase rfl rfl rfl nofun nofun
  · exact h

theorem Coherente.sondea (h : Coherente m s) : Coherente m s.sondea := by
  unfold MetaLoop.sondea
  split
  · cases hflag : s.stopFlag with
    | true => exact h.of_fase rfl rfl rfl nofun nofun
    | false => exact h.of_fase rfl rfl rfl nofun nofun
  · exact h

theorem Coherente.paso (h : Coherente m s) (e : Evento) : Coherente m (s.paso m e) := by
  cases e with
  | start => exact h.start
  | stop => exact h.of_iguales rfl rfl rfl rfl rfl
  | abre sesion => exact h.abre sesion
  | sondea => exact h.sondea
  | recibe hash => exact h.recibe hash
  | inserta ahora => exact h.inserta ahora
  | vence ahora => exact h.vence ahora
  | desconecta =>
    unfold MetaLoop.paso MetaLoop.desconecta
    dsimp only
    split
    · exact h.of_fase rfl rfl rfl nofun nofun
    · exact h
  | cosecha fecha => exact h.cosecha fecha
  | indexa => exact h.indexa
  | anuncia =>
    unfold MetaLoop.paso MetaLoop.anuncia
    dsimp only
    split
    · exact h.of_fase rfl rfl rfl nofun nofun
    · exact h
  | pollNuevos => exact h.of_iguales rfl rfl rfl rfl rfl
  | agrega t => exact h.of_iguales rfl rfl rfl rfl rfl
  | lista torrents => exact h.of_iguales rfl rfl rfl rfl rfl
  | reordena pendientes =>
    rw [MetaLoop.paso]
    split
    · rename_i hperm
      have hperm := List.isPerm_iff.mp hperm
      refine ⟨⟨h.1.distintos, h.1.tope, h.1.recorte, ?_, ?_⟩, ?_, h.2.nuevos, ?_⟩
      · exact hperm.length_eq ▸ h.1.pendientes
      · exact fun x hx => h.1.disjuntos x (hperm.mem_iff.mpr hx)
      · exact fun hash hfase => hperm.length_eq ▸ h.2.admite hash hfase
      · exact fun hfase x hx => h.2.pendientes hfase x (hperm.mem_iff.mpr hx)
    · exact h

/-- From any loaded index of distinct hashes within its cap, the index and the pending map keep
their bounds at every point of every run. -/
theorem acotado_siempre (m : MaxMeta) (hallados : List Hallado) (sesion : Sesion)
    (es : List Evento) (hdistintos : (hallados.map Hallado.infoHash).Nodup)
    (htope : hallados.length ≤ TOPE_INDICE) :
    Run.Always (paso m) (Acotado m) (new hallados sesion) es := by
  have hnew : Coherente m (new hallados sesion) := by
    refine ⟨⟨hdistintos, htope, BoundedLog.Holds.refl htope, Nat.zero_le _, nofun⟩, ?_⟩
    exact enMano_of_fase nofun nofun
  have hcoherente : Run.Always (paso m) (Coherente m) (new hallados sesion) es := by
    apply Run.always_of_invariant
    · intro s e hs
      exact hs.paso e
    · exact hnew
  exact hcoherente.imp fun s hs => hs.1

def unTorrent : Torrent := ⟨List.replicate 40 'a', some ⟨['t'], [7], [], []⟩⟩

/-- A torrent of the session enters the index of one entry. -/
theorem acotado_unTorrent : Run.Always (paso (MaxMeta.clamp 50)) (Acotado (MaxMeta.clamp 50))
    (new [⟨List.replicate 40 'b', ['b'], 0, 0, 0, [], []⟩] ⟨[unTorrent], List.nodup_singleton _⟩)
    [.start, .abre true, .sondea, .recibe (List.replicate 40 'a'), .inserta 0, .vence 1,
      .cosecha fun _ => 0, .indexa, .anuncia] := by
  apply acotado_siempre
  · exact List.nodup_singleton _
  · rw [TOPE_INDICE]
    decide

end Nerea.Dht.MetaLoop
