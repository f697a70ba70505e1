import Mathlib.Data.Finset.Basic
import Mathlib.Logic.Function.Basic
import Nerea.Shared.InTurn
import Nerea.Shared.Run

/-!
# The torrent session

`torrent_session_start` looks at the global cell, makes the directory, awaits the session
and then fills the cell, which takes the first value only. Calls that look before the cell
is filled create a session each on the same directory, and the later ones only learn of it
when theirs exists. Calls that look while no other is on its way to the cell share one session.
-/

set_option autoImplicit false

namespace Nerea.Torrent

structure Peticion where
  enable_dht : Bool
  enable_upnp : Bool
  down_bps : Option ℕ
  up_bps : Option ℕ

/-- `NonZeroU32::new` -/
def bps (v : Option ℕ) : Option ℕ := v.bind fun n => if n = 0 then none else some n

/-- None = ilimitado. -/
structure LimitsConfig where
  upload_bps : Option ℕ
  download_bps : Option ℕ

def limits (down_bps up_bps : Option ℕ) : LimitsConfig := ⟨bps up_bps, bps down_bps⟩

/-- What a request sets of `SessionOptions`; the files are in the data directory. -/
structure SessionOptions where
  persistence : String
  dht : Option String
  enable_upnp_port_forwarding : Bool
  ratelimits : LimitsConfig

/-- Every call is for the data directory of the app. -/
def opciones (data_dir : String) (p : Peticion) : SessionOptions where
  persistence := data_dir
  dht := if p.enable_dht then some (data_dir ++ "/dht.json") else none
  enable_upnp_port_forwarding := p.enable_upnp
  ratelimits := limits p.down_bps p.up_bps

/-- Where a call stands; `conSesion` says that a session existed or was being created when
the call was made. -/
inductive Fase where
  | ausente
  | directorio (p : Peticion) (conSesion : Bool)
  | creando (p : Peticion) (conSesion : Bool)
  /-- The session is there and the cell has not been asked yet. -/
  | creada (p : Peticion) (conSesion : Bool) (m : ℕ)
  | fin (conSesion : Bool) (r : Except String String)

/-- From the call of `new_with_opts` until the cell is asked. -/
def Fase.Crea : Fase → Prop
  | .creando _ _ => True
  | .creada _ _ _ => True
  | _ => False

/-- Between the check of the cell and `API.set`. -/
def Fase.EnCurso : Fase → Prop
  | .directorio _ _ => True
  | .creando _ _ => True
  | .creada _ _ _ => True
  | _ => False

theorem Fase.Crea.enCurso {f : Fase} (hf : f.Crea) : f.EnCurso := by
  cases f with
  | creando p b => trivial
  | creada p b m => trivial
  | _ => exact hf.elim

def Fase.conSesion : Fase → Bool
  | .ausente => false
  | .directorio _ b => b
  | .creando _ b => b
  | .creada _ b _ => b
  | .fin b _ => b

/-- Sessions are numbered as they are created; `enCurso` has the calls that create one. -/
structure Estado where
  api : Option ℕ
  sesiones : List SessionOptions
  enCurso : Finset ℕ
  llamadas : ℕ → Fase

namespace Estado

inductive Suceso where
  /-- `torrents` is how many the active session has. -/
  | llama (n : ℕ) (p : Peticion) (torrents : ℕ)
  /-- `create_dir_all` -/
  | directorio (n : ℕ) (r : Except String Unit)
  /-- `Session::new_with_opts` -/
  | crea (n : ℕ) (r : Except String Unit)
  /-- `API.set` -/
  | guarda (n : ℕ)

def inicial : Estado := ⟨none, [], ∅, fun _ => .ausente⟩

def setLlamada (s : Estado) (n : ℕ) (f : Fase) : Estado :=
  { s with llamadas := Function.update s.llamadas n f }

/-- The call is over, and creates nothing any more. -/
def acaba (s : Estado) (n : ℕ) (conSesion : Bool) (r : Except String String) : Estado :=
  { s.setLlamada n (.fin conSesion r) with enCurso := s.enCurso.erase n }

variable (data_dir : String)

def paso (s : Estado) : Suceso → Estado
  | .llama n p torrents =>
    match s.llamadas n with
    | .ausente =>
      match s.api with
      | some _ => s.acaba n true (.ok s!"ya activa ({torrents} torrents)")
      | none => s.setLlamada n (.directorio p (decide s.enCurso.Nonempty))
    | _ => s
  | .directorio n r =>
    match s.llamadas n, r with
    | .directorio p b, .ok () =>
      { s.setLlamada n (.creando p b) with enCurso := insert n s.enCurso }
    | .directorio _ b, .error e => s.acaba n b (.error e)
    | _, _ => s
  | .crea n r =>
    match s.llamadas n, r with
    | .creando p b, .ok () =>
      { s.setLlamada n (.creada p b s.sesiones.length) with
        sesiones := s.sesiones ++ [opciones data_dir p] }
    | .creando _ b, .error e => s.acaba n b (.error s!"session: {e}")
    | _, _ => s
  | .guarda n =>
    match s.llamadas n with
    | .creada p b m =>
      match s.api with
      | none =>
        { s.acaba n b
            (.ok s!"sesión lista en {data_dir} (dht:{p.enable_dht}, upnp:{p.enable_upnp})") with
          api := some m }
      | some _ => s.acaba n b (.error "la sesión ya estaba inicializada")
    | _ => s

/-- One session, which is the one in the cell, and active at the end of every call made while
there was one or one was being created. -/
structure UnaSesion (s : Estado) : Prop where
  una : s.sesiones.length ≤ 1
  esa : ∀ m, s.api = some m → ∀ i, i < s.sesiones.length ↔ i = m
  activa : ∀ n r, s.llamadas n = .fin true r → s.api ≠ none

/-- A call that finds the cell empty finds no other between its check and `API.set`. -/
def Solo (s : Estado) : Suceso → Prop
  | .llama n _ _ => s.llamadas n = .ausente → s.api = none → ∀ k, ¬ (s.llamadas k).EnCurso
  | _ => True

variable {data_dir} {s : Estado}

/-- The events, with what they need to happen. -/
inductive Cambio (data_dir : String) (s : Estado) : Suceso → Estado → Prop
  | nada (e : Suceso) : Cambio data_dir s e s
  | activa (n : ℕ) (p : Peticion) (torrents m : ℕ) (r : Except String String)
      (hn : s.llamadas n = .ausente) (hapi : s.api = some m) :
      Cambio data_dir s (.llama n p torrents) (s.acaba n true r)
  | mira (n : ℕ) (p : Peticion) (torrents : ℕ)
      (hn : s.llamadas n = .ausente) (hapi : s.api = none) :
      Cambio data_dir s (.llama n p torrents)
        (s.setLlamada n (.directorio p (decide s.enCurso.Nonempty)))
  | empieza (n : ℕ) (p : Peticion) (b : Bool) (hn : s.llamadas n = .directorio p b) :
      Cambio data_dir s (.directorio n (.ok ()))
        { s.setLlamada n (.creando p b) with enCurso := insert n s.enCurso }
  | sinDirectorio (n : ℕ) (p : Peticion) (b : Bool) (e : String) (r : Except String String)
      (hn : s.llamadas n = .directorio p b) :
      Cambio data_dir s (.directorio n (.error e)) (s.acaba n b r)
  | crea (n : ℕ) (p : Peticion) (b : Bool) (hn : s.llamadas n = .creando p b) :
      Cambio data_dir s (.crea n (.ok ()))
        { s.setLlamada n (.creada p b s.sesiones.length) with
          sesiones := s.sesiones ++ [opciones data_dir p] }
  | sinSesion (n : ℕ) (p : Peticion) (b : Bool) (e : String) (r : Except String String)
      (hn : s.llamadas n = .creando p b) :
      Cambio data_dir s (.crea n (.error e)) (s.acaba n b r)
  | guarda (n : ℕ) (p : Peticion) (b : Bool) (m : ℕ) (r : Except String String)
      (hn : s.llamadas n = .creada p b m) (hapi : s.api = none) :
      Cambio data_dir s (.guarda n) { s.acaba n b r with api := some m }
  | yaInicializada (n : ℕ) (p : Peticion) (b : Bool) (k m : ℕ) (r : Except String String)
      (hn : s.llamadas n = .creada p b k) (hapi : s.api = some m) :
      Cambio data_dir s (.guarda n) (s.acaba n b r)

theorem paso_cambio (data_dir : String) (s : Estado) (e : Suceso) :
    Cambio data_dir s e (paso data_dir s e) := by
  cases e with
  | llama n p torrents =>
    unfold paso
    dsimp only
    split
    · rename_i hn
      split
      · exact .activa n p torrents _ _ hn ‹_›
      · exact .mira n p torrents hn ‹_›
    · exact .nada _
  | directorio n r =>
    unfold paso
    dsimp only
    split
    · exact .empieza n _ _ ‹_›
    · exact .sinDirectorio n _ _ _ _ ‹_›
    · exact .nada _
  | crea n r =>
    unfold paso
    dsimp only
    split
    · exact .crea n _ _ ‹_›
    · exact .sinSesion n _ _ _ _ ‹_›
    · exact .nada _
  | guarda n =>
    unfold paso
    dsimp only
    split
    · rename_i hn
      split
      · exact .guarda n _ _ _ _ hn ‹_›
      · exact .yaInicializada n _ _ _ _ _ hn ‹_›
    · exact .nada _

/-- The sessions that are held were created, and `enCurso` is right. -/
structure Contadas (s : Estado) : Prop where
  api : ∀ m, s.api = some m → m < s.sesiones.length
  creada : ∀ n p b m, s.llamadas n = .creada p b m → m < s.sesiones.length
  enCurso : ∀ n, n ∈ s.enCurso ↔ (s.llamadas n).Crea

/-- One call changes its phase; the sessions and the cell only grow. -/
theorem Contadas.cambia (hs : Contadas s) {s' : Estado} {n : ℕ} {f : Fase}
    (hllamadas : s'.llamadas = Function.update s.llamadas n f)
    (hsesiones : s.sesiones.length ≤ s'.sesiones.length)
    (hapi : ∀ m, s'.api = some m → s.api = some m ∨ m < s'.sesiones.length)
    (hcreada : ∀ p b m, f = .creada p b m → m < s'.sesiones.length)
    (henCurso : ∀ k, k ∈ s'.enCurso ↔ if k = n then f.Crea else k ∈ s.enCurso) :
    Contadas s' where
  api := by
    intro m hm
    rcases hapi m hm with h | h
    · exact (hs.api m h).trans_le hsesiones
    · exact h
  creada := by
    intro k p b m hk
    rw [hllamadas, Function.update_apply] at hk
    split at hk
    · exact hcreada p b m hk
    · exact (hs.creada k p b m hk).trans_le hsesiones
  enCurso := by
    intro k
    rw [henCurso, hllamadas, Function.update_apply]
    split
    · exact Iff.rfl
    · exact hs.enCurso k

theorem Contadas.acaba (hs : Contadas s) (n : ℕ) (b : Bool) (r : Except String String) :
    Contadas (s.acaba n b r) := by
  apply hs.cambia (n := n) (f := .fin b r)
  · rfl
  · exact le_refl _
  · exact fun m hm => Or.inl hm
  · intro p b' m h
    cases h
  · intro k
    change k ∈ s.enCurso.erase n ↔ _
    rw [Finset.mem_erase]
    split
    · rename_i hk
      exact iff_of_false (fun h => h.1 hk) id
    · rename_i hk
      exact and_iff_right hk

/-- A call goes on, and creates no less and no more than before. -/
theorem Contadas.sigue (hs : Contadas s) {n : ℕ} {f f' : Fase} (hn : s.llamadas n = f)
    (hcrea : f'.Crea ↔ f.Crea) (hcreada : ∀ p b m, f' ≠ .creada p b m) :
    Contadas (s.setLlamada n f') := by
  apply hs.cambia (n := n) (f := f')
  · rfl
  · exact le_refl _
  · exact fun m hm => Or.inl hm
  · exact fun p b m h => absurd h (hcreada p b m)
  · intro k
    change k ∈ s.enCurso ↔ _
    split
    · rename_i hk
      rw [hs.enCurso, hk, hn, hcrea]
    · exact Iff.rfl

theorem Contadas.empieza (hs : Contadas s) (n : ℕ) (p : Peticion) (b : Bool) :
    Contadas { s.setLlamada n (.creando p b) with enCurso := insert n s.enCurso } := by
  apply hs.cambia (n := n) (f := .creando p b)
  · rfl
  · exact le_refl _
  · exact fun m hm => Or.inl hm
  · intro p' b' m h
    cases h
  · intro k
    change k ∈ insert n s.enCurso ↔ _
    rw [Finset.mem_insert]
    split
    · rename_i hk
      exact iff_of_true (Or.inl hk) trivial
    · rename_i hk
      exact or_iff_right hk

theorem Contadas.crea (hs : Contadas s) {n : ℕ} {p : Peticion} {b : Bool}
    (hn : s.llamadas n = .creando p b) (o : SessionOptions) :
    Contadas { s.setLlamada n (.creada p b s.sesiones.length) with
      sesiones := s.sesiones ++ [o] } := by
  apply hs.cambia (n := n) (f := .creada p b s.sesiones.length)
  · rfl
  · simp
  · exact fun m hm => Or.inl hm
  · intro p' b' m h
    cases h
    simp
  · intro k
    change k ∈ s.enCurso ↔ _
    split
    · rename_i hk
      rw [hs.enCurso, hk, hn]
      exact Iff.rfl
    · exact Iff.rfl

theorem Contadas.guarda (hs : Contadas s) {n : ℕ} {p : Peticion} {b : Bool} {m : ℕ}
    (hn : s.llamadas n = .creada p b m) (r : Except String String) :
    Contadas { s.acaba n b r with api := some m } where
  api := by
    intro m' hm'
    rw [← Option.some.inj hm']
    exact hs.creada n p b m hn
  creada := (hs.acaba n b r).creada
  enCurso := (hs.acaba n b r).enCurso

theorem Contadas.cambio (hs : Contadas s) {e : Suceso} {s' : Estado}
    (h : Cambio data_dir s e s') : Contadas s' := by
  cases h with
  | nada => exact hs
  | activa n => exact hs.acaba n _ _
  | mira n p torrents hn =>
    refine hs.sigue hn Iff.rfl fun p b m h => ?_
    cases h
  | empieza n p b => exact hs.empieza n p b
  | sinDirectorio n p b => exact hs.acaba n b _
  | crea n p b hn => exact hs.crea hn _
  | sinSesion n p b => exact hs.acaba n b _
  | guarda n p b m r hn => exact hs.guarda hn r
  | yaInicializada n p b => exact hs.acaba n b _

/-- A session that was created is in the cell, or its call has not asked the cell yet. -/
def Viva (s : Estado) : Prop :=
  s.sesiones = [] ∨ s.api ≠ none ∨ ∃ n p b m, s.llamadas n = .creada p b m

/-- A call that has no session goes on. -/
theorem Viva.sigue (hs : Viva s) {s' : Estado} {n : ℕ} {f : Fase}
    (hn : ∀ p b m, s.llamadas n ≠ .creada p b m)
    (hllamadas : s'.llamadas = Function.update s.llamadas n f)
    (hsesiones : s'.sesiones = s.sesiones) (hapi : s'.api = s.api) : Viva s' := by
  unfold Viva
  rw [hsesiones, hapi]
  rcases hs with hnil | hset | ⟨k, p, b, m, hk⟩
  · exact Or.inl hnil
  · exact Or.inr (Or.inl hset)
  · refine Or.inr (Or.inr ⟨k, p, b, m, ?_⟩)
    rw [hllamadas, Function.update_of_ne]
    · exact hk
    · rintro rfl
      exact hn p b m hk

theorem Viva.cambio (hs : Viva s) {e : Suceso} {s' : Estado} (h : Cambio data_dir s e s') :
    Viva s' := by
  cases h with
  | nada => exact hs
  | activa n p torrents m r hn hapi =>
    exact Or.inr (Or.inl (hapi ▸ Option.some_ne_none m))
  | mira n p torrents hn =>
    exact hs.sigue (n := n) (fun p b m h => Fase.noConfusion (hn.symm.trans h)) rfl rfl rfl
  | empieza n p b hn =>
    exact hs.sigue (n := n) (fun p b m h => Fase.noConfusion (hn.symm.trans h)) rfl rfl rfl
  | sinDirectorio n p b e r hn =>
    exact hs.sigue (n := n) (fun p b m h => Fase.noConfusion (hn.symm.trans h)) rfl rfl rfl
  | crea n p b => exact Or.inr (Or.inr ⟨n, p, b, _, Function.update_self n _ _⟩)
  | sinSesion n p b e r hn =>
    exact hs.sigue (n := n) (fun p b m h => Fase.noConfusion (hn.symm.trans h)) rfl rfl rfl
  | guarda n p b m => exact Or.inr (Or.inl (Option.some_ne_none m))
  | yaInicializada n p b k m r hn hapi =>
    exact Or.inr (Or.inl (hapi ▸ Option.some_ne_none m))

/-- At most one call is between its check and `API.set`, and none is once the cell is filled. -/
def Turnado (s : Estado) : Prop := InTurn Fase.EnCurso s.llamadas s.api

theorem Turnado.cambio (hs : Turnado s) {e : Suceso} {s' : Estado}
    (h : Cambio data_dir s e s') (he : Solo s e) : Turnado s' := by
  cases h with
  | nada => exact hs
  | activa n => exact InTurn.advance hs (i := n) (f := .fin _ _) nofun
  | mira n p torrents hn hapi => exact InTurn.enter hapi (he hn hapi) n _
  | empieza n p b hn => exact InTurn.advance hs fun _ => hn ▸ trivial
  | sinDirectorio n => exact InTurn.advance hs (i := n) (f := .fin _ _) nofun
  | crea n p b hn => exact InTurn.advance hs fun _ => hn ▸ trivial
  | sinSesion n => exact InTurn.advance hs (i := n) (f := .fin _ _) nofun
  | guarda n p b m r hn =>
    exact InTurn.leave hs (i := n) (hn ▸ trivial) (f := .fin _ _) nofun _
  | yaInicializada n => exact InTurn.advance hs (i := n) (f := .fin _ _) nofun

/-- The session that comes is the first: no other call has one to store. -/
theorem Turnado.sesiones_eq_nil (hs : Turnado s) (h : Viva s) {n : ℕ} {p : Peticion} {b : Bool}
    (hn : s.llamadas n = .creando p b) : s.sesiones = [] := by
  have hself : (s.llamadas n).EnCurso := hn ▸ trivial
  rcases h with hnil | hset | ⟨k, p', b', m, hk⟩
  · exact hnil
  · exact absurd (InTurn.vacant hs n hself) hset
  · have hcurso : (s.llamadas k).EnCurso := hk ▸ trivial
    rw [InTurn.alone hs k n hcurso hself, hn] at hk
    cases hk

/-- The call under way was not made while a session existed or was being created. -/
def SinMarca (s : Estado) : Prop :=
  ∀ n, (s.llamadas n).EnCurso → (s.llamadas n).conSesion = false

theorem SinMarca.cambia (hs : SinMarca s) {s' : Estado} {n : ℕ} {f : Fase}
    (hllamadas : s'.llamadas = Function.update s.llamadas n f)
    (hf : f.EnCurso → f.conSesion = false) : SinMarca s' := by
  intro k
  rw [hllamadas, Function.update_apply]
  split
  · exact hf
  · exact hs k

theorem SinMarca.of_eq (hs : SinMarca s) {n : ℕ} {f : Fase} (hn : s.llamadas n = f)
    (hf : f.EnCurso) : f.conSesion = false :=
  hn ▸ hs n (hn ▸ hf)

theorem SinMarca.cambio (hs : SinMarca s) (hcontadas : Contadas s) {e : Suceso} {s' : Estado}
    (h : Cambio data_dir s e s') (he : Solo s e) : SinMarca s' := by
  cases h with
  | nada => exact hs
  | activa n => exact hs.cambia (n := n) (f := .fin _ _) rfl nofun
  | mira n p torrents hn hapi =>
    refine hs.cambia (n := n) rfl fun _ => decide_eq_false ?_
    rintro ⟨k, hk⟩
    exact he hn hapi k (Fase.Crea.enCurso ((hcontadas.enCurso k).mp hk))
  | empieza n p b hn =>
    have hb : b = false := hs.of_eq hn trivial
    exact hs.cambia (n := n) rfl fun _ => hb
  | sinDirectorio n => exact hs.cambia (n := n) (f := .fin _ _) rfl nofun
  | crea n p b hn =>
    have hb : b = false := hs.of_eq hn trivial
    exact hs.cambia (n := n) rfl fun _ => hb
  | sinSesion n => exact hs.cambia (n := n) (f := .fin _ _) rfl nofun
  | guarda n => exact hs.cambia (n := n) (f := .fin _ _) rfl nofun
  | yaInicializada n => exact hs.cambia (n := n) (f := .fin _ _) rfl nofun

/-- A call changes its phase, and nothing else that the property speaks of. -/
theorem unaSesion_cambia (h : UnaSesion s) {s' : Estado} {n : ℕ} {f : Fase}
    (hllamadas : s'.llamadas = Function.update s.llamadas n f)
    (hsesiones : s'.sesiones = s.sesiones) (hapi : s'.api = s.api) :
    UnaSesion s' ↔ ∀ r, f = .fin true r → s.api ≠ none := by
  constructor
  · intro h' r hf
    rw [← hapi]
    apply h'.activa n r
    rw [hllamadas, Function.update_self, hf]
  · intro hf
    refine ⟨hsesiones ▸ h.una, hsesiones ▸ hapi ▸ h.esa, ?_⟩
    intro k r hk
    rw [hllamadas, Function.update_apply] at hk
    rw [hapi]
    split at hk
    · exact hf r hk
    · exact h.activa k r hk

theorem unaSesion_sigue (h : UnaSesion s) {s' : Estado} {n : ℕ} {f : Fase}
    (hf : ∀ r, f ≠ .fin true r) (hllamadas : s'.llamadas = Function.update s.llamadas n f)
    (hsesiones : s'.sesiones = s.sesiones) (hapi : s'.api = s.api) : UnaSesion s' :=
  (unaSesion_cambia h hllamadas hsesiones hapi).mpr fun r hr => absurd hr (hf r)

theorem unaSesion_acaba (h : UnaSesion s) (n : ℕ) (b : Bool) (r : Except String String) :
    UnaSesion (s.acaba n b r) ↔ (b = true → s.api ≠ none) := by
  have hcambia : UnaSesion (s.acaba n b r) ↔ _ :=
    unaSesion_cambia h (n := n) (f := .fin b r) rfl rfl rfl
  rw [hcambia]
  constructor
  · intro hf hb
    exact hf r (by rw [hb])
  · intro hb r' hf
    cases hf
    exact hb rfl

/-- A session more is one session when there was none. -/
theorem unaSesion_crea (hs : Contadas s) (h : UnaSesion s) (n m : ℕ) (p : Peticion) (b : Bool)
    (o : SessionOptions) :
    UnaSesion { s.setLlamada n (.creada p b m) with sesiones := s.sesiones ++ [o] } ↔
      s.sesiones = [] := by
  constructor
  · intro h'
    have huna : (s.sesiones ++ [o]).length ≤ 1 := h'.una
    rw [List.length_append, List.length_singleton] at huna
    exact List.eq_nil_of_length_eq_zero (by omega)
  · intro hnil
    refine ⟨?_, ?_, ?_⟩
    · change (s.sesiones ++ [o]).length ≤ 1
      rw [hnil]
      exact le_refl 1
    · intro m' hm'
      have hlt := hs.api m' hm'
      rw [hnil] at hlt
      exact absurd hlt (Nat.not_lt_zero m')
    · intro k r hk
      change Function.update s.llamadas n _ k = _ at hk
      rw [Function.update_apply] at hk
      split at hk
      · cases hk
      · exact h.activa k r hk

theorem unaSesion_guarda (hs : Contadas s) (h : UnaSesion s) {n : ℕ} {p : Peticion} {b : Bool}
    {m : ℕ} (hn : s.llamadas n = .creada p b m) (r : Except String String) :
    UnaSesion { s.acaba n b r with api := some m } where
  una := h.una
  esa := by
    intro m' hm' i
    have hlt := hs.creada n p b m hn
    have huna := h.una
    rw [← Option.some.inj hm']
    change i < s.sesiones.length ↔ i = m
    omega
  activa := fun _ _ _ => Option.some_ne_none m

/-- What holds of the calls that take turns. -/
structure EnOrden (s : Estado) : Prop where
  contadas : Contadas s
  viva : Viva s
  turnado : Turnado s
  sinMarca : SinMarca s

theorem EnOrden.cambio (hs : EnOrden s) {e : Suceso} {s' : Estado}
    (h : Cambio data_dir s e s') (he : Solo s e) : EnOrden s' where
  contadas := hs.contadas.cambio h
  viva := hs.viva.cambio h
  turnado := hs.turnado.cambio h he
  sinMarca := hs.sinMarca.cambio hs.contadas h he

theorem Cambio.unaSesion (hs : EnOrden s) (h : UnaSesion s) {e : Suceso} {s' : Estado}
    (hcambio : Cambio data_dir s e s') : UnaSesion s' := by
  cases hcambio with
  | nada => exact h
  | activa n p torrents m r hn hapi =>
    rw [unaSesion_acaba h, hapi]
    exact fun _ => Option.some_ne_none m
  | mira n p torrents => exact unaSesion_sigue h (n := n) (f := .directorio _ _) nofun rfl rfl rfl
  | empieza n p b => exact unaSesion_sigue h (n := n) (f := .creando _ _) nofun rfl rfl rfl
  | sinDirectorio n p b e r hn =>
    have hb : b = false := hs.sinMarca.of_eq hn trivial
    rw [unaSesion_acaba h, hb]
    exact nofun
  | crea n p b hn =>
    exact (unaSesion_crea hs.contadas h _ _ _ _ _).mpr (hs.turnado.sesiones_eq_nil hs.viva hn)
  | sinSesion n p b e r hn =>
    have hb : b = false := hs.sinMarca.of_eq hn trivial
    rw [unaSesion_acaba h, hb]
    exact nofun
  | guarda n p b m r hn => exact unaSesion_guarda hs.contadas h hn r
  | yaInicializada n p b k m r hn hapi =>
    rw [unaSesion_acaba h, hapi]
    exact fun _ => Option.some_ne_none m

theorem inicial_enOrden : EnOrden inicial where
  contadas := ⟨nofun, nofun, fun n => iff_of_false (Finset.notMem_empty n) id⟩
  viva := Or.inl rfl
  turnado := InTurn.idle (fun _ => id) none
  sinMarca := fun _ h => h.elim

theorem inicial_unaSesion : UnaSesion inicial := ⟨Nat.zero_le 1, nofun, nofun⟩

/-- What a call that found the cell empty does when nothing fails, up to its session. -/
def llega (n : ℕ) : List Suceso := [.directorio n (.ok ()), .crea n (.ok ())]

theorem run_llega (data_dir : String) {n : ℕ} {p : Peticion} {b : Bool}
    (hn : s.llamadas n = .directorio p b ∨ s.llamadas n = .creando p b) :
    (Run.run (paso data_dir) s (llega n)).sesiones.length = s.sesiones.length + 1 ∧
      ∀ k, k ≠ n → (Run.run (paso data_dir) s (llega n)).llamadas k = s.llamadas k := by
  have hcreando : ∃ s₁, paso data_dir s (.directorio n (.ok ())) = s₁ ∧
      s₁.llamadas n = .creando p b ∧ s₁.sesiones = s.sesiones ∧
      ∀ k, k ≠ n → s₁.llamadas k = s.llamadas k := by
    rcases hn with hn | hn
    · refine ⟨{ s.setLlamada n (.creando p b) with enCurso := insert n s.enCurso },
        by simp only [paso, hn], Function.update_self n _ _, rfl, ?_⟩
      exact fun k hk => Function.update_of_ne hk _ _
    · exact ⟨s, by simp only [paso, hn], hn, rfl, fun _ _ => rfl⟩
  obtain ⟨s₁, hpaso, hn₁, hsesiones, hothers⟩ := hcreando
  have hcrea : paso data_dir s₁ (.crea n (.ok ())) =
      { s₁.setLlamada n (.creada p b s₁.sesiones.length) with
        sesiones := s₁.sesiones ++ [opciones data_dir p] } := by
    simp only [paso, hn₁]
  simp only [llega, Run.run, List.foldl_cons, List.foldl_nil]
  rw [hpaso, hcrea]
  constructor
  · change (s₁.sesiones ++ [opciones data_dir p]).length = _
    rw [List.length_append, hsesiones, List.length_singleton]
  · exact fun k hk => (Function.update_of_ne hk _ _).trans (hothers k hk)

/-- A call that finds another under way creates a second session, if nothing fails. -/
theorem Contadas.two_sessions (hs : Contadas s) (data_dir : String) {n : ℕ} {p : Peticion}
    {torrents : ℕ} (h : ¬ Solo s (.llama n p torrents)) :
    ∃ es, 2 ≤ (Run.run (paso data_dir) s (.llama n p torrents :: es)).sesiones.length := by
  simp only [Solo, Classical.not_imp, not_forall, not_not] at h
  obtain ⟨hn, hapi, k, hk⟩ := h
  have hne : k ≠ n := by
    rintro rfl
    rw [hn] at hk
    exact hk
  have hllama : paso data_dir s (.llama n p torrents) =
      s.setLlamada n (.directorio p (decide s.enCurso.Nonempty)) := by
    simp only [paso, hn, hapi]
  generalize hs' : s.setLlamada n (.directorio p (decide s.enCurso.Nonempty)) = s' at hllama
  have hbegun : s'.llamadas n = .directorio p (decide s.enCurso.Nonempty) := by
    rw [← hs']
    exact Function.update_self n _ _
  have hother : s'.llamadas k = s.llamadas k := by
    rw [← hs']
    exact Function.update_of_ne hne _ _
  have hsesiones : s'.sesiones = s.sesiones := by
    rw [← hs']
    rfl
  have hrun : ∀ es, Run.run (paso data_dir) s (.llama n p torrents :: es) =
      Run.run (paso data_dir) s' es := by
    intro es
    rw [← hllama]
    rfl
  -- the other call has its session already, or gets it first
  by_cases hcreada : ∃ p' b' m, s.llamadas k = .creada p' b' m
  · obtain ⟨p', b', m, hm⟩ := hcreada
    have hlt := hs.creada k p' b' m hm
    refine ⟨llega n, ?_⟩
    rw [hrun, (run_llega data_dir (Or.inl hbegun)).1, hsesiones]
    omega
  · have hwaits : ∃ p' b', s'.llamadas k = .directorio p' b' ∨ s'.llamadas k = .creando p' b' := by
      rw [hother]
      cases hl : s.llamadas k with
      | directorio p' b' => exact ⟨p', b', Or.inl rfl⟩
      | creando p' b' => exact ⟨p', b', Or.inr rfl⟩
      | creada p' b' m => exact absurd ⟨p', b', m, hl⟩ hcreada
      | _ =>
        rw [hl] at hk
        exact hk.elim
    obtain ⟨p', b', hwaits⟩ := hwaits
    obtain ⟨hcount, hrest⟩ := run_llega data_dir hwaits
    refine ⟨llega k ++ llega n, ?_⟩
    have hlast := run_llega data_dir (Or.inl ((hrest n hne.symm).trans hbegun))
    rw [hrun, Run.run_append, hlast.1, hcount]
    omega

/-- In every run in which a call that finds the cell empty finds no other under way, there is one
session, active for every call made since it was begun; and after any run, a call made
otherwise leads to a second session unless something fails. -/
theorem one_session (data_dir : String) (es : List Suceso) :
    (Run.AllSteps (paso data_dir) Solo inicial es →
      Run.Always (paso data_dir) UnaSesion inicial es) ∧
    ∀ n p torrents, ¬ Solo (Run.run (paso data_dir) inicial es) (.llama n p torrents) →
      ∃ es', ¬ UnaSesion
        (Run.run (paso data_dir) inicial (es ++ .llama n p torrents :: es')) := by
  constructor
  · intro hes
    have hall : Run.Always (paso data_dir) (fun s => EnOrden s ∧ UnaSesion s) inicial es := by
      refine Run.always_of_allSteps (fun s e hs he => ?_) ?_ hes
      · have hcambio := paso_cambio data_dir s e
        exact ⟨hs.1.cambio hcambio he, hcambio.unaSesion hs.1 hs.2⟩
      · exact ⟨inicial_enOrden, inicial_unaSesion⟩
    exact hall.imp fun s hs => hs.2
  · intro n p torrents hn
    have hcontadas : Contadas (Run.run (paso data_dir) inicial es) :=
      Run.invariant (fun s e hs => hs.cambio (paso_cambio data_dir s e))
        inicial_enOrden.contadas es
    obtain ⟨es', htwo⟩ := hcontadas.two_sessions data_dir hn
    refine ⟨es', fun h => ?_⟩
    rw [Run.run_append] at h
    have hle := h.una
    omega

/-- The first call cannot create its session, the second can, and the third finds it. -/
theorem calls_in_turn : Run.Always (paso "app") UnaSesion inicial
    [.llama 0 ⟨true, true, none, none⟩ 0, .directorio 0 (.ok ()), .crea 0 (.error "puerto"),
      .llama 1 ⟨true, true, none, none⟩ 0, .directorio 1 (.ok ()), .crea 1 (.ok ()), .guarda 1,
      .llama 2 ⟨false, true, none, none⟩ 3] := by
  apply (one_session "app" _).1
  refine ⟨fun _ _ k hk => hk, trivial, trivial, ?_, trivial, trivial, trivial, nofun, trivial⟩
  intro _ _ k hk
  by_cases heq : k = 0
  · rw [heq] at hk
    exact hk
  · change (Function.update (Function.update (Function.update (fun _ => Fase.ausente) 0 _) 0 _) 0
      _ k).EnCurso at hk
    rw [Function.update_of_ne heq, Function.update_of_ne heq, Function.update_of_ne heq] at hk
    exact hk

/-- Two calls before either session is in the cell. -/
theorem two_calls :
    ¬ ∀ data_dir es, Run.Always (paso data_dir) UnaSesion inicial es := by
  intro h
  have hlast := (h "" [.llama 0 ⟨true, true, none, none⟩ 0, .llama 1 ⟨true, true, none, none⟩ 0,
    .directorio 0 (.ok ()), .directorio 1 (.ok ()), .crea 0 (.ok ()), .crea 1 (.ok ())]).last
  exact absurd hlast.una (by decide)

end Estado
end Nerea.Torrent
