import Nerea.Dht.IndexBounds

/-!
# A torrent is announced once

Whether a torrent is new is decided by the index alone, and the session keeps its torrents, so
one that is trimmed from the index is harvested and announced again. No hash is announced or
handed out twice between two starts exactly when no trimming drops one of them.
-/

set_option autoImplicit false

namespace Nerea.Dht.MetaLoop

variable {m : MaxMeta} {s s' : MetaLoop} {hash : Texto}

/-- The session has the metadata of the torrent. -/
def Resuelto (s : MetaLoop) (hash : Texto) : Prop :=
  ∃ t ∈ s.sesion.torrents, t.infoHash = hash ∧ ∃ datos, t.metadatos = some datos ∧
    datos.nombre ≠ []

/-- The next harvest takes the torrent. -/
def Cosechable (s : MetaLoop) (hash : Texto) : Prop :=
  s.Resuelto hash ∧ yaIndexado s.hallados hash = false

def porAnunciar (s : MetaLoop) : List Texto :=
  match s.fase with
  | .anuncia => s.cosechados.map Hallado.infoHash
  | _ => []

/-- Since `start` no hash was announced twice or handed out twice, and none of those announced,
or waiting then, is to be harvested again. -/
structure UnaVez (s : MetaLoop) : Prop where
  empujados : s.empujados.Nodup
  entregados : s.entregados.Nodup
  recortados : ∀ hash ∈ s.vistos ++ s.porAnunciar, ¬ s.Cosechable hash

/-- The last `TOPE_INDICE` entries of the index and the harvest together hold every hash that
was announced since `start`, was waiting then, or is in the harvest. -/
def SinRecorte (s : MetaLoop) : Evento → Prop
  | .indexa => s.fase = .indexa → s.cosechados ≠ [] →
      ∀ hash ∈ s.vistos ++ s.cosechados.map Hallado.infoHash,
        hash ∈ ((s.hallados ++ s.cosechados).drop
          (s.hallados.length + s.cosechados.length - TOPE_INDICE)).map Hallado.infoHash
  | _ => True

structure Anotado (s : MetaLoop) : Prop where
  distintos : (s.vistos ++ s.porAnunciar).Nodup
  resueltos : ∀ hash ∈ s.vistos ++ s.porAnunciar, s.Resuelto hash
  cosechados : s.fase = .indexa → (s.cosechados.map Hallado.infoHash).Nodup ∧
    ∀ h ∈ s.cosechados, s.Cosechable h.infoHash
  vistos : ∃ consultados, s.vistos = consultados ++ s.nuevos ∧
    s.entregados.Sublist consultados
  empujados : s.empujados.Sublist s.vistos

def Recortados (s : MetaLoop) : Prop := ∀ hash ∈ s.vistos ++ s.porAnunciar, ¬ s.Cosechable hash

theorem Anotado.unaVez_iff_recortados (h : Anotado s) : UnaVez s ↔ Recortados s := by
  constructor
  · exact UnaVez.recortados
  · intro hrecortados
    have hvistos := h.distintos.sublist (List.sublist_append_left s.vistos s.porAnunciar)
    obtain ⟨consultados, heq, hsub⟩ := h.vistos
    refine ⟨hvistos.sublist h.empujados, ?_, hrecortados⟩
    rw [heq] at hvistos
    exact hvistos.sublist (hsub.trans (List.sublist_append_left consultados s.nuevos))

/-- The step has nothing to do with the announcements. -/
structure Ajeno (s s' : MetaLoop) : Prop where
  vistos : s'.vistos = s.vistos
  nuevos : s'.nuevos = s.nuevos
  entregados : s'.entregados = s.entregados
  empujados : s'.empujados = s.empujados
  hallados : s'.hallados = s.hallados
  sesion : s'.sesion = s.sesion
  porAnunciar : s'.porAnunciar = s.porAnunciar
  cosechados : s'.fase = .indexa → s.fase = .indexa ∧ s'.cosechados = s.cosechados

theorem Ajeno.refl (s : MetaLoop) : Ajeno s s :=
  ⟨rfl, rfl, rfl, rfl, rfl, rfl, rfl, fun h => ⟨h, rfl⟩⟩

theorem Ajeno.cosechable_iff (h : Ajeno s s') : s'.Cosechable hash ↔ s.Cosechable hash := by
  rw [Cosechable, Cosechable, Resuelto, Resuelto, h.sesion, h.hallados]

theorem Ajeno.anotado (h : Ajeno s s') (hs : Anotado s) : Anotado s' := by
  constructor
  · rw [h.vistos, h.porAnunciar]
    exact hs.distintos
  · intro hash hmem
    rw [h.vistos, h.porAnunciar] at hmem
    rw [Resuelto, h.sesion]
    exact hs.resueltos hash hmem
  · intro hfase
    obtain ⟨hfase, heq⟩ := h.cosechados hfase
    rw [heq]
    obtain ⟨hnodup, hall⟩ := hs.cosechados hfase
    exact ⟨hnodup, fun x hx => h.cosechable_iff.mpr (hall x hx)⟩
  · rw [h.vistos, h.nuevos, h.entregados]
    exact hs.vistos
  · rw [h.empujados, h.vistos]
    exact hs.empujados

theorem Ajeno.recortados (h : Ajeno s s') (hs : Recortados s) : Recortados s' := by
  intro hash hmem
  rw [h.vistos, h.porAnunciar] at hmem
  rw [h.cosechable_iff]
  exact hs hash hmem

theorem porAnunciar_of_ne (h : s.fase ≠ .anuncia) : s.porAnunciar = [] := by
  unfold porAnunciar
  split
  · exact absurd ‹_› h
  · rfl

theorem porAnunciar_of_indexa (h : s.fase = .indexa) : s.porAnunciar = [] := by
  unfold porAnunciar
  rw [h]

theorem ajeno_con (fase : Fase) (hfase : s.fase ≠ .anuncia) (hanuncia : fase ≠ .anuncia)
    (hindexa : fase ≠ .indexa) (pendientes : List (Texto × ℕ)) (capturas : List Captura) :
    Ajeno s { s with fase := fase, pendientes := pendientes, capturas := capturas } := by
  refine ⟨rfl, rfl, rfl, rfl, rfl, rfl, ?_, fun h => absurd h hindexa⟩
  rw [porAnunciar_of_ne hfase]
  exact porAnunciar_of_ne hanuncia

theorem ajeno_abre (s : MetaLoop) (sesion : Bool) : Ajeno s (s.abre sesion) := by
  unfold abre
  split
  · rename_i hfase
    have hne : s.fase ≠ .anuncia := by rw [hfase]; nofun
    cases sesion with
    | true => exact ajeno_con .cabeza hne nofun nofun s.pendientes s.capturas
    | false => exact ajeno_con .parado hne nofun nofun s.pendientes s.capturas
  · exact Ajeno.refl s

theorem ajeno_sondea (s : MetaLoop) : Ajeno s s.sondea := by
  unfold sondea
  split
  · rename_i hfase
    have hne : s.fase ≠ .anuncia := by rw [hfase]; nofun
    refine ajeno_con (if s.stopFlag then .parado else .drena) hne ?_ ?_ s.pendientes s.capturas
    · split <;> nofun
    · split <;> nofun
  · exact Ajeno.refl s

theorem ajeno_recibe (m : MaxMeta) (s : MetaLoop) (hash : Texto) : Ajeno s (s.recibe m hash) := by
  unfold recibe
  split
  · rename_i hfase
    split
    · exact Ajeno.refl s
    · split
      · exact Ajeno.refl s
      · exact ajeno_con (.admite hash) (by rw [hfase]; nofun) nofun nofun _ s.capturas
  · exact Ajeno.refl s

theorem ajeno_inserta (s : MetaLoop) (ahora : ℕ) : Ajeno s (s.inserta ahora) := by
  unfold inserta
  split
  · rename_i hfase
    exact ajeno_con .drena (by rw [hfase]; nofun) nofun nofun _ _
  · exact Ajeno.refl s

theorem ajeno_vence (s : MetaLoop) (ahora : ℕ) : Ajeno s (s.vence ahora) := by
  unfold vence
  split
  · rename_i hfase
    exact ajeno_con .cosecha (by rw [hfase]; nofun) nofun nofun _ s.capturas
  · exact Ajeno.refl s

theorem ajeno_desconecta (s : MetaLoop) : Ajeno s s.desconecta := by
  unfold desconecta
  split
  · rename_i hfase
    exact ajeno_con .parado (by rw [hfase]; nofun) nofun nofun s.pendientes s.capturas
  · exact Ajeno.refl s

theorem ajeno_reordena (m : MaxMeta) (s : MetaLoop) (pendientes : List (Texto × ℕ)) :
    Ajeno s (s.paso m (.reordena pendientes)) := by
  rw [paso]
  split
  · exact ⟨rfl, rfl, rfl, rfl, rfl, rfl, rfl, fun h => ⟨h, rfl⟩⟩
  · exact Ajeno.refl s

theorem hallado_isSome {fecha : Texto → ℤ} {t : Torrent} :
    (∃ h, hallado fecha t = some h) ↔ ∃ datos, t.metadatos = some datos ∧ datos.nombre ≠ [] := by
  unfold hallado
  split
  · rename_i hnone
    simp [hnone]
  · rename_i datos hdatos
    rw [hdatos]
    split
    · rename_i hnombre
      simp [hnombre]
    · rename_i hnombre
      exact iff_of_true ⟨_, rfl⟩ ⟨datos, rfl, hnombre⟩

theorem cosechable_iff (fecha : Texto → ℤ) : s.Cosechable hash ↔
    ∃ h ∈ cosechar s.hallados fecha s.sesion.torrents, h.infoHash = hash := by
  constructor
  · intro hnew
    rcases hnew with ⟨⟨t, ht, rfl, hdatos⟩, hnew⟩
    obtain ⟨h, hh⟩ : ∃ h, hallado fecha t = some h := hallado_isSome.mpr hdatos
    exact ⟨h, mem_cosechar.mpr ⟨t, ht, hnew, hh⟩, hallado_eq_some hh⟩
  · intro hmem
    rcases hmem with ⟨h, hmem, rfl⟩
    obtain ⟨t, ht, hnew, hh⟩ := mem_cosechar.mp hmem
    rw [hallado_eq_some hh]
    exact ⟨⟨t, ht, rfl, hallado_isSome.mp ⟨h, hh⟩⟩, hnew⟩

theorem Anotado.start (hs : Anotado s) : Anotado s.start := by
  unfold MetaLoop.start
  split
  · obtain ⟨consultados, heq, -⟩ := hs.vistos
    have hsub : s.nuevos.Sublist (s.vistos ++ s.porAnunciar) := by
      rw [heq, List.append_assoc]
      exact (List.sublist_append_left s.nuevos _).trans (List.sublist_append_right consultados _)
    refine ⟨?_, ?_, nofun, ⟨[], rfl, List.Sublist.refl _⟩, List.nil_sublist _⟩
    · rw [porAnunciar, List.append_nil]
      exact hs.distintos.sublist hsub
    · intro hash hmem
      rw [porAnunciar, List.append_nil] at hmem
      exact hs.resueltos hash (hsub.subset hmem)
  · exact hs

theorem Recortados.start (ha : Anotado s) (hs : Recortados s) : Recortados s.start := by
  unfold MetaLoop.start
  split
  · obtain ⟨consultados, heq, -⟩ := ha.vistos
    intro hash hmem
    rw [porAnunciar, List.append_nil] at hmem
    apply hs hash
    rw [heq]
    exact List.mem_append_left _ (List.mem_append_right _ hmem)
  · exact hs

theorem Anotado.cosecha (hs : Anotado s) (fecha : Texto → ℤ) : Anotado (s.cosecha fecha) := by
  unfold MetaLoop.cosecha
  split
  · rename_i hfase
    have hnada : s.porAnunciar = [] := porAnunciar_of_ne (by rw [hfase]; nofun)
    have hdistintos := hs.distintos
    have hresueltos := hs.resueltos
    rw [hnada] at hdistintos hresueltos
    refine ⟨hdistintos, hresueltos, fun _ => ⟨?_, ?_⟩, hs.vistos, hs.empujados⟩
    · exact s.sesion.distintos.sublist (cosechar_map_sublist fecha _)
    · exact fun h hmem => (cosechable_iff (s := s) fecha).mpr ⟨h, hmem, rfl⟩
  · exact hs

theorem Recortados.cosecha (hs : Recortados s) (fecha : Texto → ℤ) :
    Recortados (s.cosecha fecha) := by
  unfold MetaLoop.cosecha
  split
  · intro hash hmem
    rw [porAnunciar, List.append_nil] at hmem
    exact hs hash (List.mem_append_left _ hmem)
  · exact hs

/-- A harvest holds none of the hashes announced before. -/
theorem Anotado.indexa (ha : Anotado s) (hs : Recortados s) : Anotado s.indexa := by
  unfold MetaLoop.indexa
  split
  · rename_i hfase
    obtain ⟨hnodup, hcosechables⟩ := ha.cosechados hfase
    have hnada := porAnunciar_of_indexa hfase
    have hdistintos := ha.distintos
    have hresueltos := ha.resueltos
    split
    · rw [hnada] at hdistintos hresueltos
      exact ⟨hdistintos, hresueltos, nofun, ha.vistos, ha.empujados⟩
    · refine ⟨?_, ?_, nofun, ha.vistos, ha.empujados⟩
      · rw [hnada, List.append_nil] at hdistintos
        apply List.Nodup.append hdistintos hnodup
        intro hash hvisto hmem
        obtain ⟨h, hh, rfl⟩ := List.mem_map.mp hmem
        exact hs h.infoHash (List.mem_append_left _ hvisto) (hcosechables h hh)
      · intro hash hmem
        rcases List.mem_append.mp hmem with hvisto | hbatch
        · exact hresueltos hash (List.mem_append_left _ hvisto)
        · obtain ⟨h, hh, rfl⟩ := List.mem_map.mp hbatch
          exact (hcosechables h hh).1
  · exact ha

theorem Recortados.indexa_iff (m : MaxMeta) (ha : Anotado s) (hs : Recortados s) :
    Recortados (s.paso m .indexa) ↔ s.SinRecorte .indexa := by
  rw [paso, SinRecorte]
  by_cases hfase : s.fase = .indexa
  · obtain ⟨hnodup, hcosechables⟩ := ha.cosechados hfase
    have hnada := porAnunciar_of_indexa hfase
    by_cases hvacia : s.cosechados = []
    · refine iff_of_true ?_ fun _ hne => absurd hvacia hne
      unfold MetaLoop.indexa
      rw [hfase]
      dsimp only
      rw [if_pos hvacia]
      intro hash hmem
      rw [porAnunciar, List.append_nil] at hmem
      exact hs hash (List.mem_append_left _ hmem)
    · have hresueltos := (ha.indexa hs).resueltos
      have hlista : s.indexa.vistos ++ s.indexa.porAnunciar =
          s.vistos ++ s.cosechados.map Hallado.infoHash := by
        simp [MetaLoop.indexa, hfase, hvacia, porAnunciar]
      have hindice : s.indexa.hallados = (s.hallados ++ s.cosechados).drop
          (s.hallados.length + s.cosechados.length - TOPE_INDICE) := by
        simp only [MetaLoop.indexa, hfase, if_neg hvacia]
        rw [foldl_empuja hnodup fun h hh => (hcosechables h hh).2, BoundedLog.trim,
          List.length_append]
      rw [Recortados, hlista]
      rw [hlista] at hresueltos
      constructor
      · intro hnew _ _ hash hmem
        by_contra hfuera
        rw [← hindice, ← yaIndexado_eq_false] at hfuera
        exact hnew hash hmem ⟨hresueltos hash hmem, hfuera⟩
      · intro hcond hash hmem hcosechable
        have hdentro := hcond hfase hvacia hash hmem
        rw [← hindice] at hdentro
        exact yaIndexado_eq_false.mp hcosechable.2 hdentro
  · refine iff_of_true ?_ fun h => absurd h hfase
    have hsame : s.indexa = s := by
      unfold MetaLoop.indexa
      split
      · exact absurd ‹_› hfase
      · rfl
    rw [hsame]
    exact hs

theorem Anotado.anuncia (hs : Anotado s) : Anotado s.anuncia := by
  unfold MetaLoop.anuncia
  split
  · rename_i hfase
    have hlista : s.porAnunciar = s.cosechados.map Hallado.infoHash := by
      rw [porAnunciar, hfase]
    have hdistintos := hs.distintos
    have hresueltos := hs.resueltos
    rw [hlista] at hdistintos hresueltos
    refine ⟨?_, ?_, nofun, ?_, ?_⟩
    · rw [porAnunciar, List.append_nil]
      exact hdistintos
    · intro hash hmem
      rw [porAnunciar, List.append_nil] at hmem
      exact hresueltos hash hmem
    · obtain ⟨consultados, heq, hsub⟩ := hs.vistos
      refine ⟨consultados, ?_, hsub⟩
      dsimp only
      rw [heq, List.append_assoc]
    · exact hs.empujados.append (List.Sublist.refl _)
  · exact hs

theorem Recortados.anuncia (hs : Recortados s) : Recortados s.anuncia := by
  unfold MetaLoop.anuncia
  split
  · rename_i hfase
    intro hash hmem
    rw [porAnunciar, List.append_nil] at hmem
    apply hs hash
    rw [porAnunciar, hfase]
    exact hmem
  · exact hs

theorem buscarExacto_eq_some {hallados : List Hallado} {h : Hallado}
    (hh : buscarExacto hallados hash = some h) : h.infoHash = hash := by
  have hfound := List.find?_some hh
  exact beq_iff_eq.mp hfound

theorem entrega_sublist (hallados : List Hallado) (nuevos : List Texto) :
    ((nuevos.filterMap (buscarExacto hallados)).map Hallado.infoHash).Sublist nuevos := by
  induction nuevos with
  | nil => exact List.Sublist.refl _
  | cons hash nuevos ih =>
    rw [List.filterMap_cons]
    split
    · exact ih.cons _
    · rename_i hsome
      rw [List.map_cons, buscarExacto_eq_some hsome]
      exact ih.cons_cons _

theorem Anotado.pollNuevos (hs : Anotado s) : Anotado s.pollNuevos.1 := by
  refine ⟨hs.distintos, hs.resueltos, hs.cosechados, ?_, hs.empujados⟩
  obtain ⟨consultados, heq, hsub⟩ := hs.vistos
  refine ⟨consultados ++ s.nuevos, ?_, hsub.append (entrega_sublist s.hallados s.nuevos)⟩
  exact heq.trans (List.append_nil _).symm

theorem resuelto_agrega (t : Torrent) (h : s.Resuelto hash) :
    Resuelto { s with sesion := s.sesion.agrega t } hash := by
  obtain ⟨u, hu, hhash, datos, hdatos, hnombre⟩ := h
  have hmem : u ∈ (s.sesion.agrega t).torrents := by
    unfold Sesion.agrega
    split
    · have hsame : Sesion.resuelve t u = u := by
        rw [Sesion.resuelve, if_neg]
        intro hnone
        rcases hnone with ⟨-, hnone⟩
        rw [hdatos] at hnone
        cases hnone
      exact List.mem_map.mpr ⟨u, hu, hsame⟩
    · exact List.mem_append_left _ hu
  exact ⟨u, hmem, hhash, datos, hdatos, hnombre⟩

theorem resuelto_reordena (torrents : List Torrent) (h : s.Resuelto hash) :
    Resuelto { s with sesion := s.sesion.reordena torrents } hash := by
  obtain ⟨u, hu, hrest⟩ := h
  have hmem : u ∈ (s.sesion.reordena torrents).torrents := by
    unfold Sesion.reordena
    split
    · rename_i hperm
      exact hperm.mem_iff.mp hu
    · exact hu
  exact ⟨u, hmem, hrest⟩

/-- The session changes and keeps the metadata it has. -/
theorem Anotado.conSesion (hs : Anotado s) {sesion : Sesion}
    (hsesion : ∀ hash, s.Resuelto hash → Resuelto { s with sesion := sesion } hash) :
    Anotado { s with sesion := sesion } where
  distintos := hs.distintos
  resueltos := fun hash hmem => hsesion hash (hs.resueltos hash hmem)
  cosechados := by
    intro hfase
    obtain ⟨hnodup, hall⟩ := hs.cosechados hfase
    exact ⟨hnodup, fun h hh => ⟨hsesion _ (hall h hh).1, (hall h hh).2⟩⟩
  vistos := hs.vistos
  empujados := hs.empujados

theorem Recortados.conSesion (ha : Anotado s) (hs : Recortados s) (sesion : Sesion) :
    Recortados { s with sesion := sesion } :=
  fun hash hmem hcosechable => hs hash hmem ⟨ha.resueltos hash hmem, hcosechable.2⟩

theorem Anotado.paso (m : MaxMeta) (ha : Anotado s) (hs : Recortados s) (e : Evento) :
    Anotado (s.paso m e) := by
  cases e with
  | start => exact ha.start
  | stop => exact ⟨ha.distintos, ha.resueltos, ha.cosechados, ha.vistos, ha.empujados⟩
  | abre sesion => exact (ajeno_abre s sesion).anotado ha
  | sondea => exact (ajeno_sondea s).anotado ha
  | recibe hash => exact (ajeno_recibe m s hash).anotado ha
  | inserta ahora => exact (ajeno_inserta s ahora).anotado ha
  | vence ahora => exact (ajeno_vence s ahora).anotado ha
  | desconecta => exact (ajeno_desconecta s).anotado ha
  | cosecha fecha => exact ha.cosecha fecha
  | indexa => exact ha.indexa hs
  | anuncia => exact ha.anuncia
  | pollNuevos => exact ha.pollNuevos
  | agrega t => exact ha.conSesion fun _ => resuelto_agrega t
  | reordena pendientes => exact (ajeno_reordena m s pendientes).anotado ha
  | lista torrents => exact ha.conSesion fun _ => resuelto_reordena torrents

theorem Recortados.paso_iff (m : MaxMeta) (ha : Anotado s) (hs : Recortados s) (e : Evento) :
    Recortados (s.paso m e) ↔ s.SinRecorte e := by
  cases e with
  | start => exact iff_of_true (hs.start ha) trivial
  | stop => exact iff_of_true hs trivial
  | abre sesion => exact iff_of_true ((ajeno_abre s sesion).recortados hs) trivial
  | sondea => exact iff_of_true ((ajeno_sondea s).recortados hs) trivial
  | recibe hash => exact iff_of_true ((ajeno_recibe m s hash).recortados hs) trivial
  | inserta ahora => exact iff_of_true ((ajeno_inserta s ahora).recortados hs) trivial
  | vence ahora => exact iff_of_true ((ajeno_vence s ahora).recortados hs) trivial
  | desconecta => exact iff_of_true ((ajeno_desconecta s).recortados hs) trivial
  | cosecha fecha => exact iff_of_true (hs.cosecha fecha) trivial
  | indexa => exact hs.indexa_iff m ha
  | anuncia => exact iff_of_true hs.anuncia trivial
  | pollNuevos => exact iff_of_true hs trivial
  | agrega t => exact iff_of_true (hs.conSesion ha _) trivial
  | reordena pendientes =>
    exact iff_of_true ((ajeno_reordena m s pendientes).recortados hs) trivial
  | lista torrents => exact iff_of_true (hs.conSesion ha _) trivial

theorem new_anotado (hallados : List Hallado) (sesion : Sesion) :
    Anotado (new hallados sesion) :=
  ⟨List.nodup_nil, nofun, nofun, ⟨[], rfl, List.Sublist.refl _⟩, List.Sublist.refl _⟩

/-- From any loaded index and any session, each hash is announced and handed out at most once
between two starts, and none of those is to be harvested again, exactly when no trimming drops
one. -/
theorem unaVez_iff (m : MaxMeta) (hallados : List Hallado) (sesion : Sesion) (es : List Evento) :
    Run.Always (paso m) UnaVez (new hallados sesion) es ↔
      Run.AllSteps (paso m) SinRecorte (new hallados sesion) es := by
  have hnew := new_anotado hallados sesion
  apply Run.always_iff_of_invariant (I := Anotado)
  · intro s e ha hs
    exact ha.paso m hs.recortados e
  · intro s e ha hs
    have hs : Recortados s := hs.recortados
    rw [(ha.paso m hs e).unaVez_iff_recortados]
    exact hs.paso_iff m ha e
  · exact hnew
  · exact hnew.unaVez_iff_recortados.mpr nofun

section Counterexample

def cifra (d : ℕ) : Char :=
  ['0', '1', '2', '3', '4', '5', '6', '7', '8', '9', 'a', 'b', 'c', 'd', 'e', 'f'].getD d '0'

/-- The number in five hexadecimal digits, the lowest first, filled up to forty. -/
def numerado (i : ℕ) : Texto :=
  cifra (i % 16) :: cifra (i / 16 % 16) :: cifra (i / 256 % 16) :: cifra (i / 4096 % 16) ::
    cifra (i / 65536 % 16) :: List.replicate 35 '0'

theorem cifra_inj : ∀ d < 16, ∀ e < 16, cifra d = cifra e → d = e := by
  decide

theorem numerado_inj {i j : ℕ} (hi : i < 1048576) (hj : j < 1048576)
    (h : numerado i = numerado j) : i = j := by
  simp only [numerado, List.cons.injEq, and_true] at h
  obtain ⟨h0, h1, h2, h3, h4⟩ := h
  have hinj {d e : ℕ} (h : cifra (d % 16) = cifra (e % 16)) : d % 16 = e % 16 :=
    cifra_inj _ (Nat.mod_lt _ (by decide)) _ (Nat.mod_lt _ (by decide)) h
  have e0 := hinj h0
  have e1 := hinj h1
  have e2 := hinj h2
  have e3 := hinj h3
  have e4 := hinj h4
  omega

def muchos : List Torrent :=
  (List.range (TOPE_INDICE + 1)).map fun i => ⟨numerado i, some ⟨['t'], [], [], []⟩⟩

theorem nodup_muchos : (muchos.map Torrent.infoHash).Nodup := by
  rw [muchos, List.map_map]
  apply List.Nodup.map_on _ List.nodup_range
  intro i hi j hj h
  rw [List.mem_range, TOPE_INDICE] at hi hj
  exact numerado_inj (by omega) (by omega) h

/-- One iteration in which nothing arrives and nothing is given up. -/
def vuelta : List Evento := [.sondea, .vence 0, .cosecha fun _ => 0, .indexa, .anuncia]

theorem run_vuelta (m : MaxMeta) (hfase : s.fase = .cabeza) (hflag : s.stopFlag = false)
    (hcosecha : cosechar s.hallados (fun _ => 0) s.sesion.torrents ≠ []) :
    let c := cosechar s.hallados (fun _ => 0) s.sesion.torrents
    let s' := Run.run (paso m) s vuelta
    s'.fase = .cabeza ∧ s'.stopFlag = false ∧ s'.sesion = s.sesion ∧
      s'.hallados = BoundedLog.trim TOPE_INDICE (c.foldl empuja s.hallados) ∧
      s'.empujados = s.empujados ++ c.map Hallado.infoHash := by
  simp [vuelta, Run.run, paso, sondea, hfase, hflag, vence, MetaLoop.cosecha, MetaLoop.indexa,
    hcosecha, MetaLoop.anuncia]

theorem cosechar_muchos : (cosechar [] (fun _ => 0) muchos).map Hallado.infoHash =
    muchos.map Torrent.infoHash := by
  have hall : ∀ t ∈ muchos, ∃ h, hallado (fun _ => 0) t = some h := by
    intro t ht
    obtain ⟨i, -, rfl⟩ := List.mem_map.mp ht
    exact ⟨_, rfl⟩
  generalize muchos = ts at hall
  induction ts with
  | nil => rfl
  | cons t ts ih =>
    obtain ⟨h, hh⟩ := hall t List.mem_cons_self
    have hrest := ih fun t' ht' => hall t' (List.mem_cons_of_mem _ ht')
    rw [cosechar] at hrest
    rw [cosechar, List.filterMap_cons, yaIndexado, List.any_nil, if_neg Bool.false_ne_true, hh]
    rw [List.map_cons, List.map_cons, hrest, hallado_eq_some hh]

/-- The torrent trimmed in the first iteration is harvested in the next. -/
theorem cosechable_trasRecorte (hsesion : s.sesion.torrents = muchos)
    (hhallados : s.hallados = BoundedLog.trim TOPE_INDICE (cosechar [] (fun _ => 0) muchos)) :
    s.Cosechable (numerado 0) := by
  have hprimero : ⟨numerado 0, some ⟨['t'], [], [], []⟩⟩ ∈ muchos :=
    List.mem_map.mpr ⟨0, List.mem_range.mpr (Nat.succ_pos _), rfl⟩
  constructor
  · rw [Resuelto, hsesion]
    exact ⟨_, hprimero, rfl, _, rfl, List.cons_ne_nil _ _⟩
  · have hlength : (cosechar [] (fun _ => 0) muchos).length = TOPE_INDICE + 1 := by
      have hmap := congrArg List.length cosechar_muchos
      rw [List.length_map, List.length_map] at hmap
      rw [hmap, muchos, List.length_map, List.length_range]
    have hcons : ∃ resto, muchos.map Torrent.infoHash = numerado 0 :: resto := by
      rw [muchos, List.range_succ_eq_map]
      exact ⟨_, rfl⟩
    obtain ⟨resto, hresto⟩ := hcons
    have hnodup := nodup_muchos
    rw [hresto, List.nodup_cons] at hnodup
    rw [yaIndexado_eq_false, hhallados, BoundedLog.trim, hlength, Nat.add_sub_cancel_left,
      List.map_drop, cosechar_muchos, hresto]
    exact hnodup.1

/-- One torrent more than the index holds, and two iterations: the first is announced twice. -/
theorem muchos_dosVeces : ¬ ∀ (m : MaxMeta) (hallados : List Hallado) (sesion : Sesion)
    (es : List Evento), Run.Always (paso m) UnaVez (new hallados sesion) es := by
  intro h
  let m := MaxMeta.clamp 50
  let s₀ := Run.run (paso m) (new [] ⟨muchos, nodup_muchos⟩) [.start, .abre true]
  have hfin := (h m [] ⟨muchos, nodup_muchos⟩ ([.start, .abre true] ++ (vuelta ++ vuelta))).last
  rw [Run.run_append, Run.run_append] at hfin
  have hsolo : cosechar [] (fun _ => 0) muchos ≠ [] := by
    intro hnil
    have hmap := cosechar_muchos
    rw [hnil, muchos, List.range_succ_eq_map] at hmap
    cases hmap
  have hsolos : (cosechar [] (fun _ => 0) muchos).foldl empuja [] =
      cosechar [] (fun _ => 0) muchos := by
    apply foldl_empuja
    · rw [cosechar_muchos]
      exact nodup_muchos
    · exact fun _ _ => rfl
  obtain ⟨hfase, hflag, hsesion, hhallados, hempujados⟩ := run_vuelta (s := s₀) m rfl rfl hsolo
  have hsesion₀ : s₀.sesion.torrents = muchos := rfl
  have hhallados₀ : s₀.hallados = [] := rfl
  have hempujados₀ : s₀.empujados = [] := rfl
  rw [hsesion₀, hhallados₀, hsolos] at hhallados
  rw [hsesion₀, hhallados₀, hempujados₀, cosechar_muchos] at hempujados
  have hotra := (cosechable_iff fun _ => 0).mp
    (cosechable_trasRecorte (hsesion ▸ hsesion₀) hhallados)
  obtain ⟨x, hx, hhash⟩ := hotra
  obtain ⟨-, -, -, -, hdos⟩ := run_vuelta m hfase hflag (List.ne_nil_of_mem hx)
  have hnodup := hfin.empujados
  rw [hdos, hempujados, List.nil_append] at hnodup
  have hprimero : numerado 0 ∈ muchos.map Torrent.infoHash := by
    rw [muchos, List.map_map]
    exact List.mem_map.mpr ⟨0, List.mem_range.mpr (Nat.succ_pos _), rfl⟩
  exact List.disjoint_of_nodup_append hnodup hprimero (hhash ▸ List.mem_map_of_mem hx)

end Counterexample

end Nerea.Dht.MetaLoop
