import Nerea.Colab.Auth

/-!
# When a logout is final

The tokens are gone from memory when a logout is called and the file goes with it as long
as one is still to look at it. A load that gets its tokens afterwards brings them back, and
a save that opens the file when every logout is over makes it again.
-/

set_option autoImplicit false

namespace Nerea.Colab
namespace ColabAuth

def Pendiente (s : ColabAuth) : Prop := ∃ n, (s.llamadas n).isLogout = true

/-- A logout other than `n` is not over. -/
def Otro (s : ColabAuth) (n : ℕ) : Prop := ∃ m, m ≠ n ∧ (s.llamadas m).isLogout = true

/-- Nothing in memory, and no file or a logout that is still to look at it. -/
structure ASalvo (s : ColabAuth) : Prop where
  tokens : s.tokens = none
  file : s.file.entry = none ∨ s.Pendiente

/-- No load gets tokens, no save opens the file when every logout is over, and the last
logout does not fail while the file is there. -/
def Definitivo (d : Dart) (f : Fechas) (s : ColabAuth) : Evento → Prop
  | .leido n => ∀ i, s.llamadas n = .loadLee i → parseFile d f (s.file.contents i) = none
  | .abierto n => ∀ text, s.llamadas n = .saveAbre text → s.Pendiente
  | .falla n => (s.llamadas n).isLogout = true → s.file.entry = none ∨ s.Otro n
  | _ => True

variable {d : Dart} {f : Fechas} {s s' : ColabAuth} {e : Evento}

theorem pendiente_iff (s : ColabAuth) (n : ℕ) :
    s.Pendiente ↔ (s.llamadas n).isLogout = true ∨ s.Otro n := by
  constructor
  · intro hm
    rcases hm with ⟨m, hm⟩
    by_cases heq : m = n
    · exact Or.inl (heq ▸ hm)
    · exact Or.inr ⟨m, heq, hm⟩
  · intro hm
    rcases hm with h | ⟨m, -, hm⟩
    · exact ⟨n, h⟩
    · exact ⟨m, hm⟩

theorem pendiente_of_update {n : ℕ} {c : Llamada}
    (h : s'.llamadas = Function.update s.llamadas n c) :
    s'.Pendiente ↔ c.isLogout = true ∨ s.Otro n := by
  rw [pendiente_iff s' n, h, Function.update_self]
  apply or_congr Iff.rfl
  unfold Otro
  rw [h]
  constructor
  · intro hm
    rcases hm with ⟨m, hne, hm⟩
    exact ⟨m, hne, by rwa [Function.update_of_ne hne] at hm⟩
  · intro hm
    rcases hm with ⟨m, hne, hm⟩
    exact ⟨m, hne, by rwa [Function.update_of_ne hne]⟩

theorem pendiente_iff_otro {n : ℕ} {c : Llamada}
    (h : s'.llamadas = Function.update s.llamadas n c) (hc : c.isLogout = false) :
    s'.Pendiente ↔ s.Otro n := by
  rw [pendiente_of_update h, hc]
  exact or_iff_right Bool.false_ne_true

/-- How a call goes on. -/
inductive Avance (d : Dart) (f : Fechas) (s : ColabAuth) : Evento → ColabAuth → Prop
  | quieto {e : Evento} {s' : ColabAuth} (n : ℕ) (c : Llamada) (htokens : s'.tokens = s.tokens)
      (hentry : s'.file.entry = s.file.entry)
      (hllamadas : s'.llamadas = Function.update s.llamadas n c)
      (hlogout : c.isLogout = (s.llamadas n).isLogout) (hd : Definitivo d f s e) :
      Avance d f s e s'
  | carga (n i : ℕ) (t : ColabTokens) (hn : s.llamadas n = .loadLee i)
      (ht : parseFile d f (s.file.contents i) = some t) :
      Avance d f s (.leido n) ({ s with tokens := some t }.sigue n .fin)
  | refresca {e : Evento} {s' : ColabAuth} (htokens : s.tokens ≠ none)
      (htokens' : s'.tokens ≠ none) : Avance d f s e s'
  | abre (n : ℕ) (text : String) (hn : s.llamadas n = .saveAbre text) :
      Avance d f s (.abierto n)
        ({ s with file := s.file.openWrite }.sigue n (.saveEscribe s.file.target text))
  | ausente (n : ℕ) (hn : s.llamadas n = .logoutExiste) (hentry : s.file.entry = none) :
      Avance d f s (.existe n) (s.sigue n .fin)
  | borra (n : ℕ) (hn : s.llamadas n = .logoutBorra) :
      Avance d f s (.borrado n) ({ s with file := s.file.unlink }.sigue n .fin)
  | falla (n : ℕ) (hn : (s.llamadas n).isLogout = true) :
      Avance d f s (.falla n) (s.sigue n .fin)

theorem avance_nada (hd : Definitivo d f s e) : Avance d f s e s :=
  .quieto 0 (s.llamadas 0) rfl rfl (Function.update_eq_self 0 s.llamadas).symm rfl hd

theorem avance_sigue {n : ℕ} {c : Llamada} (hlogout : c.isLogout = (s.llamadas n).isLogout)
    (hd : Definitivo d f s e) : Avance d f s e (s.sigue n c) :=
  .quieto n c rfl rfl rfl hlogout hd

theorem avance_ruta (n : ℕ) : Avance d f s (.ruta n) (s.handleRuta d f n (s.llamadas n)) := by
  unfold handleRuta
  split
  · rename_i hn
    exact avance_sigue (by rw [hn]; rfl) trivial
  · rename_i hn
    split
    · exact avance_sigue (by rw [hn]; rfl) trivial
    · exact avance_sigue (by rw [hn]; rfl) trivial
  · rename_i hn
    exact avance_sigue (by rw [hn]; rfl) trivial
  · exact avance_nada trivial

theorem avance_existe (n : ℕ) : Avance d f s (.existe n) (s.handleExiste n (s.llamadas n)) := by
  unfold handleExiste
  split
  · rename_i hn
    split
    · exact avance_sigue (by rw [hn]; rfl) trivial
    · exact avance_sigue (by rw [hn]; rfl) trivial
  · rename_i hn
    split
    · exact avance_sigue (by rw [hn]; rfl) trivial
    · rename_i hentry
      exact .ausente n hn (Option.not_isSome_iff_eq_none.mp hentry)
  · exact avance_nada trivial

theorem avance_abierto (n : ℕ) : Avance d f s (.abierto n) (s.handleAbierto n (s.llamadas n)) := by
  unfold handleAbierto
  split
  · rename_i hn
    have hd : Definitivo d f s (.abierto n) := by
      intro text hsave
      rw [hn] at hsave
      cases hsave
    split
    · exact avance_sigue (by rw [hn]; rfl) hd
    · exact avance_sigue (by rw [hn]; rfl) hd
  · rename_i text hn
    exact .abre n text hn
  · rename_i hsave
    exact avance_nada fun text hn => absurd hn (hsave text)

theorem avance_leido (n : ℕ) : Avance d f s (.leido n) (s.paso d f (.leido n)) := by
  simp only [paso]
  split
  · rename_i i hn
    split
    · rename_i hparse
      apply avance_sigue (by rw [hn]; rfl)
      intro i' hn'
      rw [hn] at hn'
      cases hn'
      exact hparse
    · rename_i t hparse
      exact .carga n i t hn hparse
  · rename_i hread
    exact avance_nada fun i hn => absurd hn (hread i)

theorem avance_post (n : ℕ) (now : ℤ) (statusCode : ℕ) (body : String) :
    Avance d f s (.post n now statusCode body) (s.paso d f (.post n now statusCode body)) := by
  simp only [paso]
  split
  · rename_i hn
    have hfin : Avance d f s (.post n now statusCode body) (s.sigue n .fin) :=
      avance_sigue (by rw [hn]; rfl) trivial
    unfold handlePost
    split
    · exact hfin
    · split
      · rename_i htokens _
        split
        · exact hfin
        · exact .refresca (by rw [htokens]; simp) (by simp [sigue])
      · exact hfin
  · exact avance_nada trivial

theorem paso_avance (he : e.continua = true) : Avance d f s e (s.paso d f e) := by
  cases e with
  | exchanged t => cases he
  | loadTokens => cases he
  | refreshToken => cases he
  | getToken now => cases he
  | logout => cases he
  | ruta n => exact avance_ruta n
  | existe n => exact avance_existe n
  | abierto n => exact avance_abierto n
  | leido n => exact avance_leido n
  | post n now statusCode body => exact avance_post n now statusCode body
  | escrito n =>
    simp only [paso]
    split
    · rename_i hn
      exact .quieto n .saveCierra rfl (s.file.entry_write 0 _ 0 _) rfl (by rw [hn]; rfl) trivial
    · exact avance_nada trivial
  | cerrado n =>
    simp only [paso]
    split
    · rename_i hn
      exact avance_sigue (by rw [hn]; rfl) trivial
    · exact avance_nada trivial
  | borrado n =>
    simp only [paso]
    split
    · exact .borra n ‹_›
    · exact avance_nada trivial
  | falla n =>
    cases hlogout : (s.llamadas n).isLogout with
    | true => exact .falla n hlogout
    | false =>
      apply avance_sigue (by rw [hlogout]; rfl)
      intro h
      rw [hlogout] at h
      cases h

theorem Avance.aSalvo_iff (h : Avance d f s e s') (hs : ASalvo s) :
    ASalvo s' ↔ Definitivo d f s e := by
  cases h with
  | quieto n c htokens hentry hllamadas hlogout hd =>
    apply iff_of_true _ hd
    refine ⟨htokens.trans hs.tokens, ?_⟩
    rw [hentry, pendiente_of_update hllamadas, hlogout, ← pendiente_iff]
    exact hs.file
  | carga n i t hn ht =>
    apply iff_of_false
    · intro h
      exact absurd h.tokens (by simp [sigue])
    · intro h
      rw [h i hn] at ht
      cases ht
  | refresca htokens _ => exact absurd hs.tokens htokens
  | abre n text hn =>
    have hotro : s.Pendiente ↔ s.Otro n := by
      rw [pendiente_iff s n, hn]
      exact or_iff_right Bool.false_ne_true
    constructor
    · intro h _ _
      rcases h.file with hentry | hpendiente
      · exact absurd (s.file.entry_openWrite.symm.trans hentry) (Option.some_ne_none _)
      · exact hotro.mpr ((pendiente_iff_otro rfl rfl).mp hpendiente)
    · intro h
      exact ⟨hs.tokens, Or.inr ((pendiente_iff_otro rfl rfl).mpr (hotro.mp (h text hn)))⟩
  | ausente n hn hentry => exact iff_of_true ⟨hs.tokens, Or.inl hentry⟩ trivial
  | borra n hn => exact iff_of_true ⟨hs.tokens, Or.inl s.file.entry_unlink⟩ trivial
  | falla n hn =>
    have hfin : (s.sigue n .fin).Pendiente ↔ s.Otro n := pendiente_iff_otro rfl rfl
    constructor
    · intro h _
      exact h.file.imp id hfin.mp
    · intro h
      exact ⟨hs.tokens, (h hn).imp id hfin.mpr⟩

/-- What has come back does not go again. -/
theorem Avance.not_aSalvo (h : Avance d f s e s') (hs : ¬ ASalvo s) : ¬ ASalvo s' := by
  intro h'
  apply hs
  cases h with
  | quieto n c htokens hentry hllamadas hlogout hd =>
    refine ⟨htokens.symm.trans h'.tokens, ?_⟩
    have hfile := h'.file
    rwa [hentry, pendiente_of_update hllamadas, hlogout, ← pendiente_iff] at hfile
  | carga n i t hn ht => exact absurd h'.tokens (by simp [sigue])
  | refresca _ htokens' => exact absurd h'.tokens htokens'
  | abre n text hn =>
    refine ⟨h'.tokens, Or.inr ?_⟩
    rcases h'.file with hentry | hpendiente
    · exact absurd (s.file.entry_openWrite.symm.trans hentry) (Option.some_ne_none _)
    · rw [pendiente_iff s n]
      exact Or.inr ((pendiente_iff_otro rfl rfl).mp hpendiente)
  | ausente n hn hentry => exact ⟨h'.tokens, Or.inl hentry⟩
  | borra n hn =>
    refine ⟨h'.tokens, Or.inr ⟨n, ?_⟩⟩
    rw [hn]
    rfl
  | falla n hn => exact ⟨h'.tokens, Or.inr ⟨n, hn⟩⟩

/-- All calls have finished. -/
def Terminadas (s : ColabAuth) : Prop := ∀ n, s.llamadas n = .fin

theorem Terminadas.aSalvo_iff (h : Terminadas s) :
    ASalvo s ↔ s.tokens = none ∧ s.file.entry = none := by
  have hnone : ¬ s.Pendiente := by
    intro hn
    rcases hn with ⟨n, hn⟩
    rw [h n] at hn
    cases hn
  constructor
  · exact fun hs => ⟨hs.tokens, hs.file.resolve_right hnone⟩
  · exact fun hs => ⟨hs.1, Or.inl hs.2⟩

theorem aSalvo_logout (s : ColabAuth) : ASalvo s.logout :=
  ⟨rfl, Or.inr ((pendiente_of_update rfl).mpr (Or.inl rfl))⟩

theorem getToken_error_iff (s : ColabAuth) (now : ℤ) :
    s.getToken now = .error "No autenticado" ↔ s.tokens = none := by
  unfold getToken
  cases s.tokens with
  | none => exact iff_of_true rfl rfl
  | some t => exact iff_of_false (by simp) (by simp)

theorem aSalvo_run_iff {despues : List Evento} (hs : ASalvo s)
    (hcontinua : ∀ e ∈ despues, e.continua = true) :
    ASalvo (Run.run (paso d f) s despues) ↔
      Run.AllSteps (paso d f) (Definitivo d f) s despues := by
  have hD : Run.AllSteps (paso d f) (fun _ e => e.continua = true) s despues :=
    .of_forall_mem (fun e he _ => hcontinua e he) s
  have hback : ∀ s e, Evento.continua e = true → ASalvo (paso d f s e) → ASalvo s := by
    intro s e he h
    by_contra hno
    exact (paso_avance he).not_aSalvo hno h
  rw [← Run.always_iff_allSteps (I := fun _ => True) (fun _ _ _ _ _ => trivial)
    (fun s e _ hs he => (paso_avance he).aSalvo_iff hs) trivial hs hD]
  exact ⟨Run.always_of_last hback hD, Run.Always.last⟩

/-- After the calls that were in flight have all finished, a logout has left no token in
memory and no file exactly when every step of theirs met the condition. -/
theorem logout_final_iff (d : Dart) (f : Fechas) (file : DirEntry UInt8)
    (antes despues : List Evento) (hcontinua : ∀ e ∈ despues, e.continua = true)
    (hfin : Terminadas (Run.run (paso d f) (Run.run (paso d f) (inicial file) antes).logout
      despues)) :
    let s := (Run.run (paso d f) (inicial file) antes).logout
    let s' := Run.run (paso d f) s despues
    (s'.tokens = none ∧ s'.file.entry = none ∧ ∀ now, s'.getToken now = .error "No autenticado") ↔
      Run.AllSteps (paso d f) (Definitivo d f) s despues := by
  intro s s'
  rw [← aSalvo_run_iff (aSalvo_logout _) hcontinua, hfin.aSalvo_iff]
  constructor
  · exact fun h => ⟨h.1, h.2.1⟩
  · exact fun h => ⟨h.1, h.2, fun now => (getToken_error_iff s' now).mpr h.1⟩

/-- A file that holds tokens. -/
def unaSesion : Dart where
  jsonDecode := fun _ => some (.obj [("access_token", .str "a"), ("refresh_token", .str "r"),
    ("expiry", .str "0")])
  jsonEncode := fun _ => ""
  toText := fun j => match j with
    | .str s => s
    | _ => "(...)"
  hashCode := fun _ => 0
  toText_str := fun _ => rfl

def sinFechas : Fechas := ⟨fun _ => some 0, fun _ => "0"⟩

theorem logout_final_carga :
    let s := (Run.run (paso unaSesion sinFechas) (inicial (DirEntry.holding [])) [.loadTokens,
      .ruta 0, .existe 0, .abierto 0, .leido 0]).logout
    let s' := Run.run (paso unaSesion sinFechas) s [.ruta 1, .existe 1, .borrado 1]
    s'.tokens = none ∧ s'.file.entry = none ∧ ∀ now, s'.getToken now = .error "No autenticado" := by
  refine (logout_final_iff unaSesion sinFechas (DirEntry.holding []) [.loadTokens, .ruta 0,
    .existe 0, .abierto 0, .leido 0] [.ruta 1, .existe 1, .borrado 1] (by decide) ?_).mpr
    ⟨trivial, trivial, trivial, trivial⟩
  intro n
  rcases n with _ | _ | n <;> rfl

/-- The file was opened before the logout and is read after it. -/
theorem load_outlives_logout : ¬ ∀ (d : Dart) (f : Fechas) (file : DirEntry UInt8)
    (antes despues : List Evento), (∀ e ∈ despues, e.continua = true) →
    Terminadas (Run.run (paso d f) (Run.run (paso d f) (inicial file) antes).logout despues) →
    (Run.run (paso d f) (Run.run (paso d f) (inicial file) antes).logout despues).tokens =
      none := by
  intro h
  have hnone := h unaSesion sinFechas (DirEntry.holding [])
    [.loadTokens, .ruta 0, .existe 0, .abierto 0] [.ruta 1, .existe 1, .borrado 1, .leido 0]
    (by decide) (by intro n; rcases n with _ | _ | n <;> rfl)
  have hsome : (Run.run (paso unaSesion sinFechas) (Run.run (paso unaSesion sinFechas)
      (inicial (DirEntry.holding [])) [.loadTokens, .ruta 0, .existe 0, .abierto 0]).logout
      [.ruta 1, .existe 1, .borrado 1, .leido 0]).tokens = some ⟨"a", "r", 0, []⟩ := by
    rfl
  rw [hsome] at hnone
  cases hnone

end ColabAuth
end Nerea.Colab
