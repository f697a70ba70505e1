import Nerea.Services.Stores

/-!
# The last save wins

Overlapping saves open the file in whatever order their delays give. The file ends up with
what the store holds exactly when they open it in the order of their snapshots and none
writes on after another has opened it.
-/

set_option autoImplicit false

namespace Nerea.Services

open ToolSec (Aead Azar)
open ToolSec.CryptoVault (decrypt)

namespace Estado

variable {M : Type}

/-- No save opens the file after one with a later snapshot, and none writes to it after
another has opened it. -/
def EnTurno (s : Estado M) : Evento M → Prop
  | .abierto n => ∀ enc, s.saves n = .abre enc → ∀ m ∈ s.abiertas, m < n
  | .escrito n k => ∀ enc off, s.saves n = .escribe enc off → 0 < k → off < enc.length →
    s.abiertas.head? = some n
  | _ => True

variable (A : Aead) (d : Dart) (g : Guardado M)

/-- Snapshots replace only earlier ones, writes are not mixed, and the file ends up with what
the store holds, if that was not changed without calling a save. -/
structure UltimaGana (s : Estado M) : Prop where
  enOrden : s.abiertas.Pairwise (· > ·)
  sinMezcla : ∀ n ∈ s.escritas, s.abiertas.head? = some n
  prefijo : ∀ n, s.abiertas.head? = some n →
    ∃ m azar k, s.fotos[n]? = some m ∧ s.disco = (g.sobre A d azar m).take k
  ultima : s.Completas → s.alDia = true →
    (∃ azar, s.disco = g.sobre A d azar s.memoria) ∧
      decrypt A s.disco g.passphrase = some (g.plain d s.memoria)

def EsSobre (s : Estado M) (n : ℕ) (enc : List UInt8) : Prop :=
  ∃ m azar, s.fotos[n]? = some m ∧ enc = g.sobre A d azar m

/-- A save goes on with its own snapshot, and the one that opened the file last finds there
what it has written. -/
def Lleva (s : Estado M) (n : ℕ) : Pc → Prop
  | .cifra plain => ∃ m, s.fotos[n]? = some m ∧ plain = g.plain d m
  | .ruta enc => s.EsSobre A d g n enc
  | .abre enc => s.EsSobre A d g n enc
  | .escribe enc off => s.EsSobre A d g n enc ∧ n ∈ s.abiertas ∧
    (s.abiertas.head? = some n → s.disco = enc.take off)
  | .fin => True

/-- Where the save of a snapshot may stand: it ends only when it has opened the file. -/
structure Lugar (s : Estado M) (n : ℕ) (pc : Pc) : Prop where
  lleva : s.Lleva A d g n pc
  libre : s.fotos.length ≤ n → pc = .fin
  pendiente : s.fallidas = 0 → n < s.fotos.length → n ∉ s.abiertas → pc ≠ .fin

/-- What the records say about the file and the saves while these take turns. -/
structure Registrado (s : Estado M) : Prop where
  enOrden : s.abiertas.Pairwise (· > ·)
  sinMezcla : ∀ n ∈ s.escritas, s.abiertas.head? = some n
  saves : ∀ n, s.Lugar A d g n (s.saves n)
  menores : ∀ n ∈ s.abiertas, n < s.fotos.length
  deUna : ∀ n, s.abiertas.head? = some n → ∃ enc k, s.EsSobre A d g n enc ∧
    s.disco = enc.take k ∧ (s.fallidas = 0 → s.saves n = .fin → s.disco = enc)
  alDia : s.alDia = true → s.fallidas = 0 → s.enRuta = 0 → s.fotos.getLast? = some s.memoria

variable {A d g} {s : Estado M}

theorem EsSobre.append {n : ℕ} {enc : List UInt8} (h : s.EsSobre A d g n enc) {s' : Estado M}
    {fotos : List M} (hs' : s'.fotos = s.fotos ++ fotos) : s'.EsSobre A d g n enc := by
  rcases h with ⟨m, azar, hm, henc⟩
  obtain ⟨hlt, -⟩ := List.getElem?_eq_some_iff.mp hm
  exact ⟨m, azar, by rw [hs', List.getElem?_append_left hlt, hm], henc⟩

theorem Lleva.append {n : ℕ} {pc : Pc} (h : s.Lleva A d g n pc) {s' : Estado M} {fotos : List M}
    (hfotos : s'.fotos = s.fotos ++ fotos) (habiertas : s'.abiertas = s.abiertas)
    (hdisco : s'.disco = s.disco) : s'.Lleva A d g n pc := by
  cases pc with
  | cifra plain =>
    rcases h with ⟨m, hm, hplain⟩
    obtain ⟨hlt, -⟩ := List.getElem?_eq_some_iff.mp hm
    exact ⟨m, by rw [hfotos, List.getElem?_append_left hlt, hm], hplain⟩
  | ruta enc => exact EsSobre.append h hfotos
  | abre enc => exact EsSobre.append h hfotos
  | escribe enc off =>
    rcases h with ⟨henc, hn, hdisco'⟩
    refine ⟨henc.append hfotos, by rwa [habiertas], ?_⟩
    rw [habiertas, hdisco]
    exact hdisco'
  | fin => exact trivial

@[simp] theorem saves_pasa_self (n : ℕ) (pc : Pc) : (s.pasa n pc).saves n = pc :=
  Function.update_self n _ _

theorem saves_pasa_of_ne {m n : ℕ} (h : m ≠ n) (pc : Pc) : (s.pasa n pc).saves m = s.saves m :=
  Function.update_of_ne h _ _

theorem forall_pasa {p : ℕ → Pc → Prop} {n : ℕ} {pc : Pc} (hn : p n pc)
    (h : ∀ m, m ≠ n → p m (s.saves m)) (m : ℕ) : p m ((s.pasa n pc).saves m) := by
  by_cases hm : m = n
  · subst hm
    rwa [saves_pasa_self]
  · rw [saves_pasa_of_ne hm]
    exact h m hm

theorem Registrado.inicio (m : M) (disco : List UInt8) :
    (inicio m disco).Registrado A d g where
  enOrden := List.Pairwise.nil
  sinMezcla := by
    intro n hn
    cases hn
  saves := fun n => ⟨trivial, fun _ => rfl, fun _ hn => absurd hn (Nat.not_lt_zero n)⟩
  menores := by
    intro n hn
    cases hn
  deUna := by
    intro n hn
    cases hn
  alDia := by
    intro h
    cases h

theorem Lugar.mono {n : ℕ} {pc : Pc} (h : s.Lugar A d g n pc) {s' : Estado M}
    (hlleva : s'.Lleva A d g n pc) (hfotos : s'.fotos = s.fotos)
    (hfallidas : s'.fallidas = 0 → s.fallidas = 0)
    (habiertas : ∀ m ∈ s.abiertas, m ∈ s'.abiertas) : s'.Lugar A d g n pc := by
  refine ⟨hlleva, ?_, ?_⟩
  · rw [hfotos]
    exact h.libre
  · rw [hfotos]
    intro h0 hlt hnot
    exact h.pendiente (hfallidas h0) hlt fun hmem => hnot (habiertas n hmem)

namespace Registrado

theorem lt_length (h : s.Registrado A d g) {n : ℕ} (hn : s.saves n ≠ .fin) :
    n < s.fotos.length := by
  apply Nat.lt_of_not_le
  intro hle
  exact hn ((h.saves n).libre hle)

theorem lugar (h : s.Registrado A d g) {n : ℕ} (hn : s.saves n ≠ .fin) {s' : Estado M} {pc : Pc}
    (hfotos : s'.fotos = s.fotos) (hlleva : s'.Lleva A d g n pc)
    (hpc : pc = .fin → s'.fallidas ≠ 0 ∨ n ∈ s'.abiertas) : s'.Lugar A d g n pc := by
  have hlt := h.lt_length hn
  refine ⟨hlleva, ?_, ?_⟩
  · rw [hfotos]
    intro hle
    exact absurd hle (by omega)
  · intro hfallidas _ hnot hfin
    rcases hpc hfin with hne | hmem
    · exact hne hfallidas
    · exact hnot hmem

/-- The snapshot of a call is the last one, of what the store holds. -/
theorem toma (h : s.Registrado A d g) (enRuta : ℕ) (alDia : Bool) :
    ({ s with enRuta := enRuta, alDia := alDia }.toma d g).Registrado A d g := by
  have hlength : (s.fotos ++ [s.memoria]).length = s.fotos.length + 1 := List.length_append
  refine ⟨h.enOrden, h.sinMezcla, ?_, ?_, ?_, ?_⟩
  · apply forall_pasa
    · refine ⟨⟨s.memoria, List.getElem?_concat_length, rfl⟩, fun hle => ?_, fun _ _ _ hfin => ?_⟩
      · change (s.fotos ++ [s.memoria]).length ≤ s.fotos.length at hle
        omega
      · cases hfin
    · intro n hn
      change n ≠ s.fotos.length at hn
      refine ⟨(h.saves n).lleva.append rfl rfl rfl, ?_, ?_⟩
      · change (s.fotos ++ [s.memoria]).length ≤ n → _
        intro hle
        exact (h.saves n).libre (by omega)
      · change _ → n < (s.fotos ++ [s.memoria]).length → _
        intro hfallidas hlt
        exact (h.saves n).pendiente hfallidas (by omega)
  · intro n hn
    have hlt := h.menores n hn
    change n < (s.fotos ++ [s.memoria]).length
    omega
  · intro n hn
    obtain ⟨enc, k, henc, hdisco, hfin⟩ := h.deUna n hn
    have hlt := h.menores n (List.mem_of_mem_head? hn)
    refine ⟨enc, k, henc.append rfl, hdisco, ?_⟩
    intro hfallidas hsaves
    rw [Estado.toma, saves_pasa_of_ne (Nat.ne_of_lt hlt)] at hsaves
    exact hfin hfallidas hsaves
  · intro _ _ _
    exact List.getLast?_concat

/-- A save goes on without the file being touched. -/
theorem sigue (h : s.Registrado A d g) {n : ℕ} {pc : Pc} (hn : s.saves n ≠ .fin)
    (hpc : pc ≠ .fin) (hlleva : s.Lleva A d g n pc) : (s.pasa n pc).Registrado A d g := by
  refine ⟨h.enOrden, h.sinMezcla, ?_, h.menores, ?_, h.alDia⟩
  · apply forall_pasa
    · exact h.lugar hn rfl hlleva fun hfin => absurd hfin hpc
    · intro m _
      exact (h.saves m).mono (h.saves m).lleva rfl id fun _ => id
  · intro m hm
    obtain ⟨enc, k, henc, hdisco, hfin⟩ := h.deUna m hm
    refine ⟨enc, k, henc, hdisco, fun hfallidas => ?_⟩
    by_cases hmn : m = n
    · subst hmn
      rw [saves_pasa_self]
      exact fun hfin => absurd hfin hpc
    · rw [saves_pasa_of_ne hmn]
      exact hfin hfallidas

/-- The file may change: a save that is not the one that opened it last says nothing of it. -/
theorem lleva_of_head (h : s.Registrado A d g) {n m : ℕ} (hm : m ≠ n) {s' : Estado M}
    (hfotos : s'.fotos = s.fotos) (habiertas : ∀ i ∈ s.abiertas, i ∈ s'.abiertas)
    (hhead : s'.abiertas.head? = some n) : s'.Lleva A d g m (s.saves m) := by
  have hlleva := (h.saves m).lleva
  have hfotos' : s'.fotos = s.fotos ++ [] := by rw [hfotos, List.append_nil]
  cases hpc : s.saves m with
  | cifra plain =>
    rw [hpc] at hlleva
    change ∃ x, s'.fotos[m]? = some x ∧ _
    rw [hfotos]
    exact hlleva
  | ruta enc =>
    rw [hpc] at hlleva
    exact EsSobre.append hlleva hfotos'
  | abre enc =>
    rw [hpc] at hlleva
    exact EsSobre.append hlleva hfotos'
  | escribe enc off =>
    rw [hpc] at hlleva
    refine ⟨hlleva.1.append hfotos', habiertas m hlleva.2.1, fun hhead' => ?_⟩
    exact absurd (Option.some.inj (hhead'.symm.trans hhead)) hm
  | fin => exact trivial

theorem abierto (h : s.Registrado A d g) {n : ℕ} {enc : List UInt8} (hn : s.saves n = .abre enc)
    (hultima : ∀ m ∈ s.abiertas, m < n) :
    ({ s with disco := [], abiertas := n :: s.abiertas, escritas := [] }.pasa n
      (.escribe enc 0)).Registrado A d g := by
  have hne : s.saves n ≠ .fin := by
    rw [hn]
    intro hfin
    cases hfin
  have henc : s.EsSobre A d g n enc := by
    have hlleva := (h.saves n).lleva
    rwa [hn] at hlleva
  refine ⟨List.pairwise_cons.mpr ⟨hultima, h.enOrden⟩, ?_, ?_, ?_, ?_, h.alDia⟩
  · intro m hm
    cases hm
  · apply forall_pasa
    · refine h.lugar hne rfl ⟨henc, List.mem_cons_self, fun _ => rfl⟩ fun hfin => ?_
      cases hfin
    · intro m hm
      exact (h.saves m).mono
        (h.lleva_of_head hm rfl (fun _ hmem => List.mem_cons_of_mem _ hmem) rfl) rfl id
        fun _ hmem => List.mem_cons_of_mem _ hmem
  · intro m hm
    rcases List.mem_cons.mp hm with rfl | hm
    · exact h.lt_length hne
    · exact h.menores m hm
  · intro m hm
    obtain rfl := Option.some.inj hm
    refine ⟨enc, 0, henc, rfl, fun _ => ?_⟩
    rw [saves_pasa_self]
    intro hfin
    cases hfin

/-- Only the save that opened the file last changes it, by its next piece. -/
theorem escrito (h : s.Registrado A d g) {n k off : ℕ} {enc : List UInt8}
    (hn : s.saves n = .escribe enc off)
    (hultima : 0 < k → off < enc.length → s.abiertas.head? = some n) :
    ({ s with
      disco := Overwrite.overwrite 0 s.disco off ((enc.drop off).take k)
      escritas := if ((enc.drop off).take k).isEmpty then s.escritas else n :: s.escritas
      }.pasa n (.escribe enc (off + k))).Registrado A d g := by
  have hne : s.saves n ≠ .fin := by
    rw [hn]
    intro hfin
    cases hfin
  have hlleva := (h.saves n).lleva
  rw [hn] at hlleva
  obtain ⟨henc, habierta, htake⟩ := hlleva
  by_cases hhead : s.abiertas.head? = some n
  · have hdisco : Overwrite.overwrite 0 s.disco off ((enc.drop off).take k) =
        enc.take (off + k) := by
      rw [htake hhead, Overwrite.overwrite_take]
    rw [hdisco]
    refine ⟨h.enOrden, ?_, ?_, h.menores, ?_, h.alDia⟩
    · intro m hm
      change m ∈ (if _ then _ else _) at hm
      split at hm
      · exact h.sinMezcla m hm
      · rcases List.mem_cons.mp hm with rfl | hm
        · exact hhead
        · exact h.sinMezcla m hm
    · apply forall_pasa
      · refine h.lugar hne rfl ⟨henc, habierta, fun _ => rfl⟩ fun hfin => ?_
        cases hfin
      · intro m hm
        exact (h.saves m).mono (h.lleva_of_head hm rfl (fun _ => id) hhead) rfl id fun _ => id
    · intro m hm
      obtain rfl := Option.some.inj (hhead.symm.trans hm)
      refine ⟨enc, off + k, henc, rfl, fun _ => ?_⟩
      rw [saves_pasa_self]
      intro hfin
      cases hfin
  · have hempty : (enc.drop off).take k = [] := by
      rcases Nat.eq_zero_or_pos k with rfl | hk
      · exact List.take_zero
      · rw [List.drop_eq_nil_of_le (Nat.le_of_not_lt fun hoff => hhead (hultima hk hoff)),
          List.take_nil]
    rw [hempty, Overwrite.overwrite_nil]
    refine h.sigue hne (by intro hfin; cases hfin) ⟨henc, habierta, fun hhead' => ?_⟩
    exact absurd hhead' hhead

theorem cerrado (h : s.Registrado A d g) {n off : ℕ} {enc : List UInt8}
    (hn : s.saves n = .escribe enc off) (hoff : enc.length ≤ off) :
    (s.pasa n .fin).Registrado A d g := by
  have hlleva := (h.saves n).lleva
  rw [hn] at hlleva
  obtain ⟨henc, habierta, htake⟩ := hlleva
  refine ⟨h.enOrden, h.sinMezcla, ?_, h.menores, ?_, h.alDia⟩
  · apply forall_pasa
    · exact ⟨trivial, fun _ => rfl, fun _ _ hnot => absurd habierta hnot⟩
    · intro m _
      exact (h.saves m).mono (h.saves m).lleva rfl id fun _ => id
  · intro m hm
    by_cases hmn : m = n
    · subst hmn
      have hdisco := htake hm
      rw [List.take_of_length_le hoff] at hdisco
      refine ⟨enc, enc.length, henc, ?_, fun _ _ => hdisco⟩
      rw [List.take_length]
      exact hdisco
    · obtain ⟨enc', k, henc', hdisco, hfin⟩ := h.deUna m hm
      refine ⟨enc', k, henc', hdisco, fun hfallidas => ?_⟩
      rw [saves_pasa_of_ne hmn]
      exact hfin hfallidas

theorem falla (h : s.Registrado A d g) (n : ℕ) :
    ({ s with fallidas := s.fallidas + 1 }.pasa n .fin).Registrado A d g := by
  refine ⟨h.enOrden, h.sinMezcla, ?_, h.menores, ?_, ?_⟩
  · apply forall_pasa
    · exact ⟨trivial, fun _ => rfl, fun hfallidas => nomatch hfallidas⟩
    · intro m _
      exact (h.saves m).mono (h.saves m).lleva rfl (fun hfallidas => nomatch hfallidas) fun _ => id
  · intro m hm
    obtain ⟨enc, k, henc, hdisco, -⟩ := h.deUna m hm
    exact ⟨enc, k, henc, hdisco, fun hfallidas => nomatch hfallidas⟩
  · intro _ hfallidas
    cases hfallidas

theorem fuera (h : s.Registrado A d g) {m : M} {enRuta fallidas : ℕ} {alDia : Bool}
    (hfallidas : fallidas = 0 → s.fallidas = 0)
    (halDia : alDia = true → fallidas = 0 → enRuta = 0 → s.fotos.getLast? = some m) :
    { s with memoria := m, enRuta := enRuta, alDia := alDia, fallidas := fallidas
      }.Registrado A d g := by
  refine ⟨h.enOrden, h.sinMezcla, fun n => ?_, h.menores, fun n hn => ?_, halDia⟩
  · exact (h.saves n).mono (h.saves n).lleva rfl hfallidas fun _ => id
  · obtain ⟨enc, k, henc, hdisco, hfin⟩ := h.deUna n hn
    exact ⟨enc, k, henc, hdisco, fun h0 => hfin (hfallidas h0)⟩

theorem paso (h : s.Registrado A d g) (e : Evento M) (he : s.EnTurno e) :
    (s.paso A d g e).Registrado A d g := by
  cases e with
  | cambia f => exact h.fuera id fun hal => nomatch hal
  | guarda =>
    rw [Estado.paso]
    split
    · exact h.fuera id fun _ _ hruta => nomatch hruta
    · exact h.toma s.enRuta true
  | entra =>
    rw [Estado.paso]
    split
    · exact h
    · exact h.toma (s.enRuta - 1) s.alDia
  | cifrado n azar =>
    rw [Estado.paso]
    split
    · rename_i plain hn
      have hne : s.saves n ≠ .fin := by
        rw [hn]
        intro hfin
        cases hfin
      have hlleva := (h.saves n).lleva
      rw [hn] at hlleva
      obtain ⟨m, hm, rfl⟩ := hlleva
      dsimp only
      split
      · exact h.sigue hne (fun hfin => nomatch hfin) ⟨m, azar, hm, rfl⟩
      · exact h.sigue hne (fun hfin => nomatch hfin) ⟨m, azar, hm, rfl⟩
    · exact h
  | ruta n =>
    rw [Estado.paso]
    split
    · rename_i enc hn
      have hlleva := (h.saves n).lleva
      rw [hn] at hlleva
      refine h.sigue ?_ (fun hfin => nomatch hfin) hlleva
      rw [hn]
      exact fun hfin => nomatch hfin
    · exact h
  | abierto n =>
    rw [Estado.paso]
    split
    · rename_i enc hn
      exact h.abierto hn (he enc hn)
    · exact h
  | escrito n k =>
    rw [Estado.paso]
    split
    · rename_i enc off hn
      exact h.escrito hn (he enc off hn)
    · exact h
  | cerrado n =>
    rw [Estado.paso]
    split
    · rename_i enc off hn
      split
      · rename_i hoff
        exact h.cerrado hn hoff
      · exact h
    · exact h
  | fallaRuta =>
    rw [Estado.paso]
    split
    · exact h
    · exact h.fuera (fun hfallidas => nomatch hfallidas) fun _ hfallidas => nomatch hfallidas
  | falla n =>
    rw [Estado.paso]
    split
    · exact h
    · exact h.falla n

/-- Once all saves have completed, the one that opened the file last has the last
snapshot. -/
theorem head_abiertas (h : s.Registrado A d g) (hs : s.Completas) {n : ℕ}
    (hn : n + 1 = s.fotos.length) : s.abiertas.head? = some n := by
  have hmem : n ∈ s.abiertas := by
    by_contra hnot
    exact (h.saves n).pendiente hs.fallidas (by omega) hnot (hs.saves n)
  cases hab : s.abiertas with
  | nil =>
    rw [hab] at hmem
    cases hmem
  | cons i is =>
    have hi : i < s.fotos.length := h.menores i (by rw [hab]; exact List.mem_cons_self)
    rw [hab] at hmem
    rcases List.mem_cons.mp hmem with rfl | hmem
    · rfl
    · have horden := h.enOrden
      rw [hab] at horden
      have hlt := (List.pairwise_cons.mp horden).1 n hmem
      omega

/-- Once all saves have completed, the file holds the last snapshot. -/
theorem disco_ultima (h : s.Registrado A d g) (hs : s.Completas) {n : ℕ}
    (hn : n + 1 = s.fotos.length) {m : M} (hm : s.fotos[n]? = some m) :
    ∃ azar, s.disco = g.sobre A d azar m := by
  obtain ⟨enc, k, ⟨m', azar, hm', rfl⟩, -, hfin⟩ := h.deUna n (h.head_abiertas hs hn)
  obtain rfl := Option.some.inj (hm'.symm.trans hm)
  exact ⟨azar, hfin hs.fallidas (hs.saves n)⟩

theorem ultima (h : s.Registrado A d g) (hs : s.Completas) (hal : s.alDia = true) :
    ∃ azar, s.disco = g.sobre A d azar s.memoria := by
  have hlast := h.alDia hal hs.fallidas hs.enRuta
  rw [List.getLast?_eq_getElem?] at hlast
  obtain ⟨hlt, -⟩ := List.getElem?_eq_some_iff.mp hlast
  exact h.disco_ultima hs (n := s.fotos.length - 1) (by omega) hlast

theorem ultimaGana (h : s.Registrado A d g) : s.UltimaGana A d g where
  enOrden := h.enOrden
  sinMezcla := h.sinMezcla
  prefijo := by
    intro n hn
    obtain ⟨enc, k, ⟨m, azar, hm, rfl⟩, hdisco, -⟩ := h.deUna n hn
    exact ⟨m, azar, k, hm, hdisco⟩
  ultima := by
    intro hs hal
    obtain ⟨azar, hdisco⟩ := h.ultima hs hal
    refine ⟨⟨azar, hdisco⟩, ?_⟩
    rw [hdisco]
    exact ToolSec.CryptoVault.decrypt_encrypt

end Registrado

/-- A step out of turn shows in the records at once. -/
theorem UltimaGana.enTurno {e : Evento M} (h : (s.paso A d g e).UltimaGana A d g) :
    s.EnTurno e := by
  cases e with
  | abierto n =>
    intro enc hn
    have horden := h.enOrden
    rw [paso, hn] at horden
    exact (List.pairwise_cons.mp horden).1
  | escrito n k =>
    intro enc off hn hk hoff
    have hmezcla := h.sinMezcla n
    rw [paso, hn] at hmezcla
    apply hmezcla
    have hpiece : ((enc.drop off).take k).isEmpty = false := by
      rw [List.isEmpty_eq_false_iff, ← List.length_pos_iff, List.length_take, List.length_drop]
      omega
    change n ∈ (if _ then _ else _)
    rw [hpiece, if_neg (by decide)]
    exact List.mem_cons_self
  | _ => exact trivial

/-- A save from the cipher to the end. -/
def entero (n : ℕ) (azar : Azar) (k : ℕ) : List (Evento M) :=
  [.cifrado n azar, .ruta n, .abierto n, .escrito n k, .cerrado n]

/-- A save that nothing interrupts leaves its envelope in the file. -/
theorem run_entero {n k : ℕ} {azar : Azar} {m : M} (hn : s.saves n = .cifra (g.plain d m))
    (hk : (g.sobre A d azar m).length ≤ k) :
    Run.run (paso A d g) s (entero n azar k) =
      { s with
        disco := g.sobre A d azar m
        abiertas := n :: s.abiertas
        escritas := if (g.sobre A d azar m).isEmpty then [] else [n] }.pasa n .fin := by
  have hruta : (s.paso A d g (.cifrado n azar)).paso A d g (.ruta n) =
      s.pasa n (.abre (g.sobre A d azar m)) := by
    simp only [paso, hn]
    cases g.rutaPrimero with
    | false => simp [pasa, Guardado.sobre]
    | true => simp [pasa, Guardado.sobre]
  have htake : (g.sobre A d azar m).take k = g.sobre A d azar m := List.take_of_length_le hk
  have hoverwrite : Overwrite.overwrite 0 [] 0 (g.sobre A d azar m) = g.sobre A d azar m := by
    have h := Overwrite.overwrite_take 0 (g.sobre A d azar m) 0 k
    rwa [List.take_zero, List.drop_zero, Nat.zero_add, htake] at h
  change ((((s.paso A d g (.cifrado n azar)).paso A d g (.ruta n)).paso A d g
    (.abierto n)).paso A d g (.escrito n k)).paso A d g (.cerrado n) = _
  rw [hruta]
  simp [paso, pasa, htake, hoverwrite, hk]

end Estado

open Estado

/-- For each store and every run: the last save wins exactly when the saves take turns. -/
theorem ultimaGana_iff (t : Tienda) (A : Aead) (d : Dart) (m : t.Memoria) (disco : List UInt8)
    (es : List (Evento t.Memoria)) :
    Run.Always (paso A d t.guardado) (UltimaGana A d t.guardado) (inicio m disco) es ↔
      Run.AllSteps (paso A d t.guardado) EnTurno (inicio m disco) es := by
  constructor
  · exact Run.allSteps_of_always fun s e h => h.enTurno
  · intro h
    apply Run.Always.imp fun s (hs : s.Registrado A d t.guardado) => hs.ultimaGana
    exact Run.always_of_allSteps (fun s e hs he => hs.paso e he)
      (Registrado.inicio m disco) h

def entrada : List (String × String) := [("uri", "a"), ("title", "a"), ("ts", "0")]

/-- The encoder on the two histories of the run. -/
def dartHistoria : Dart where
  jsonDecode := fun _ => none
  jsonEncode := fun j =>
    match j with
    | .arr [] => "[]"
    | _ => "[\x7b\"uri\":\"a\",\"title\":\"a\",\"ts\":\"0\"\x7d]"
  toText := fun j =>
    match j with
    | .str s => s
    | _ => "[]"
  hashCode := fun _ => 0
  toText_str := fun _ => rfl

def ceros : Azar := ⟨List.replicate 16 0, List.replicate 12 0, rfl, rfl⟩

/-- The history is saved and cleared; the second save is done before the first. -/
def adelantada : List (Evento (List (List (String × String)))) :=
  [.guarda, .cambia fun _ => [], .guarda] ++ (entero 1 ceros 100 ++ entero 0 ceros 100)

theorem adelantada_vuelve : ¬ ∀ (t : Tienda) (A : Aead) (d : Dart) (m : t.Memoria)
    (disco : List UInt8) (es : List (Evento t.Memoria)),
    Run.Always (paso A d t.guardado) (UltimaGana A d t.guardado) (inicio m disco) es := by
  intro h
  have hlast : UltimaGana ToolSec.sinCifra dartHistoria HistoryStore.persist
      (Run.run (paso ToolSec.sinCifra dartHistoria HistoryStore.persist) (inicio [entrada] [])
        adelantada) :=
    (h .historyStore ToolSec.sinCifra dartHistoria [entrada] [] adelantada).last
  have hlength : ∀ m, (HistoryStore.persist.plain dartHistoria m).length ≤ 51 →
      (HistoryStore.persist.sobre ToolSec.sinCifra dartHistoria ceros m).length ≤ 100 := by
    intro m hm
    rw [Guardado.sobre, ToolSec.CryptoVault.length_encrypt]
    omega
  rw [adelantada, Run.run_append, Run.run_append,
    run_entero (n := 1) (m := []) ?segunda (hlength _ (by decide)),
    run_entero (n := 0) (m := [entrada]) ?primera (hlength _ (by decide))] at hlast
  case segunda => rfl
  case primera => rfl
  obtain ⟨-, hdecrypt⟩ := hlast.ultima
    ⟨rfl, fun n => match n with | 0 => rfl | 1 => rfl | _ + 2 => rfl, rfl⟩ rfl
  change decrypt _ (HistoryStore.persist.sobre ToolSec.sinCifra dartHistoria ceros [entrada]) _ =
    some (HistoryStore.persist.plain dartHistoria []) at hdecrypt
  rw [Guardado.sobre, ToolSec.CryptoVault.decrypt_encrypt] at hdecrypt
  exact absurd (Option.some.inj hdecrypt) (by decide)

end Nerea.Services
