import Mathlib.Data.List.Basic
import Mathlib.Logic.Function.Basic
import Nerea.Shared.Run

/-!
# The shared-key chat under its locks

An init stores its client, its shared keys and its sender keys one after the other, each
under its own lock; a send takes the three locks and keeps them. When the inits store one
after the other, no send takes its last lock between two stores, and no participant stores
that was called before an observer returned, every message is of one identity.
-/

set_option autoImplicit false

namespace Nerea.Nostr

inductive Modo where
  | participant | observer

/-- The next lock an init takes, after it has connected and subscribed. -/
inductive PcInit where
  | conecta | client | shared | sender | notifications | devuelve

/-- The next lock a send takes; with all of them it sends what it found. -/
inductive PcSend where
  | client | sender | shared
  | enviando (client sender shared : ℕ)

inductive Hilo where
  | init (modo : Modo) (pc : PcInit)
  | send (pc : PcSend)
  | fin

/-- Between its first store and its last. -/
def Hilo.guarda : Hilo → Bool
  | init _ .shared => true
  | init _ .sender => true
  | init _ .notifications => true
  | _ => false

/-- Between its first store and that of its sender keys. -/
def Hilo.aMedias : Hilo → Bool
  | init _ .shared => true
  | init _ .sender => true
  | _ => false

/-- A cell holds the number of the init that installed what is in it, a lock that of the
send that keeps it. What is only recorded: the participants that have stored their keys, and
the observers that have returned, each with the number of the next call. -/
structure SharedKeyChat where
  client : Option ℕ
  sharedKeys : Option ℕ
  senderKeys : Option ℕ
  clientGuard : Option ℕ
  senderGuard : Option ℕ
  sharedGuard : Option ℕ
  hilos : ℕ → Hilo
  lanzados : ℕ
  guardados : List ℕ
  devueltos : List (ℕ × ℕ)

namespace SharedKeyChat

inductive Evento where
  | initParticipant
  | initObserver
  | sendMessage
  /-- The call takes its next lock, if it is free, and does what it does under it. -/
  | avanza (n : ℕ)
  /-- An error before the first store, or while sending. -/
  | falla (n : ℕ)

def sigue (s : SharedKeyChat) (n : ℕ) (h : Hilo) : SharedKeyChat :=
  { s with hilos := Function.update s.hilos n h }

def lanza (s : SharedKeyChat) (h : Hilo) : SharedKeyChat :=
  { s with lanzados := s.lanzados + 1 }.sigue s.lanzados h

/-- The send returns. -/
def suelta (s : SharedKeyChat) (n : ℕ) : SharedKeyChat :=
  { s with clientGuard := none, senderGuard := none, sharedGuard := none }.sigue n .fin

def avanzaInit (s : SharedKeyChat) (n : ℕ) : Modo → PcInit → SharedKeyChat
  | modo, .conecta => s.sigue n (.init modo .client)
  | modo, .client =>
    if s.clientGuard = none then { s with client := some n }.sigue n (.init modo .shared) else s
  | modo, .shared =>
    if s.sharedGuard = none then { s with sharedKeys := some n }.sigue n (.init modo .sender)
    else s
  | .participant, .sender =>
    if s.senderGuard = none then
      { s with senderKeys := some n, guardados := n :: s.guardados }.sigue n
        (.init .participant .notifications)
    else s
  | .observer, .sender =>
    -- observador NO escribe
    if s.senderGuard = none then
      { s with senderKeys := none }.sigue n (.init .observer .notifications)
    else s
  | .participant, .notifications => s.sigue n (.init .participant .devuelve)
  | .observer, .notifications =>
    { s with devueltos := (n, s.lanzados) :: s.devueltos }.sigue n .fin
  | _, .devuelve => if s.sharedGuard = none then s.sigue n .fin else s

def avanzaSend (s : SharedKeyChat) (n : ℕ) : PcSend → SharedKeyChat
  | .client =>
    if s.clientGuard = none then { s with clientGuard := some n }.sigue n (.send .sender) else s
  | .sender =>
    if s.senderGuard = none then { s with senderGuard := some n }.sigue n (.send .shared) else s
  | .shared =>
    if s.sharedGuard = none then
      match s.client, s.senderKeys, s.sharedKeys with
      | some client, some sender, some shared =>
        { s with sharedGuard := some n }.sigue n (.send (.enviando client sender shared))
      | _, _, _ => s.suelta n
    else s
  | .enviando _ _ _ => s.suelta n

def paso (s : SharedKeyChat) : Evento → SharedKeyChat
  | .initParticipant => s.lanza (.init .participant .conecta)
  | .initObserver => s.lanza (.init .observer .conecta)
  | .sendMessage => s.lanza (.send .client)
  | .avanza n =>
    match s.hilos n with
    | .init modo pc => s.avanzaInit n modo pc
    | .send pc => s.avanzaSend n pc
    | .fin => s
  | .falla n =>
    match s.hilos n with
    | .init _ .conecta => s.sigue n .fin
    | .send (.enviando _ _ _) => s.suelta n
    | _ => s

def inicial : SharedKeyChat where
  client := none
  sharedKeys := none
  senderKeys := none
  clientGuard := none
  senderGuard := none
  sharedGuard := none
  hilos := fun _ => .fin
  lanzados := 0
  guardados := []
  devueltos := []

/-- What is sent is of one init, and for each observer that has returned a participant that
was called later has stored its keys. -/
def UnaIdentidad (s : SharedKeyChat) : Evento → Prop
  | .avanza n => ∀ client sender shared, s.hilos n = .send (.enviando client sender shared) →
      client = sender ∧ sender = shared ∧
      ∀ o m, (o, m) ∈ s.devueltos → ∃ p ∈ s.guardados, m ≤ p
  | _ => True

/-- An init starts to store when no other is storing; a participant stores its sender keys
only if it, or another that has stored them, was called after every observer returned; and a
send finds no init between its stores when it takes its last lock, unless there are no
sender keys. -/
structure EnOrden (s : SharedKeyChat) (n : ℕ) : Prop where
  store : ∀ modo, s.hilos n = .init modo .client → ∀ n', (s.hilos n').guarda = false
  sender : s.hilos n = .init .participant .sender → ∀ o m, (o, m) ∈ s.devueltos →
    m ≤ n ∨ ∃ p ∈ s.guardados, m ≤ p
  send : s.hilos n = .send .shared → s.senderKeys ≠ none → ∀ n', (s.hilos n').aMedias = false

def EnTurno (s : SharedKeyChat) : Evento → Prop
  | .avanza n => EnOrden s n
  | _ => True

/-- What a call relies on where it stands. -/
def Local (s : SharedKeyChat) (n : ℕ) : Hilo → Prop
  | .init _ .shared => s.client = some n
  | .init _ .sender => s.client = some n ∧ s.sharedKeys = some n
  | .init .observer .notifications => s.senderKeys = none
  | .send .shared => s.senderGuard = some n
  | .send (.enviando client sender shared) => client = sender ∧ sender = shared ∧
      s.senderKeys = some sender ∧ s.senderGuard = some n
  | _ => True

structure Coherente (s : SharedKeyChat) : Prop where
  local_ : ∀ n, s.Local n (s.hilos n)
  unica : ∀ n n', (s.hilos n).guarda = true → (s.hilos n').guarda = true → n = n'
  quieta : (∀ n, (s.hilos n).aMedias = false) → ∀ j, s.senderKeys = some j →
    s.client = some j ∧ s.sharedKeys = some j
  tarde : s.senderKeys ≠ none → ∀ o m, (o, m) ∈ s.devueltos → ∃ p ∈ s.guardados, m ≤ p
  frescos : ∀ n, s.lanzados ≤ n → s.hilos n = .fin

variable {s s' : SharedKeyChat} {n : ℕ} {h : Hilo}

/-- An init that stores relies on the cells, a send with the second lock on that lock and
what it protects, the others on nothing. -/
theorem Local.mono {m : ℕ} (hl : s.Local m h)
    (hcells : h.guarda = false ∨
      s'.client = s.client ∧ s'.sharedKeys = s.sharedKeys ∧ s'.senderKeys = s.senderKeys)
    (hguard : s.senderGuard ≠ some m ∨
      s'.senderGuard = s.senderGuard ∧ s'.senderKeys = s.senderKeys) : s'.Local m h := by
  cases h with
  | fin => exact trivial
  | init modo pc =>
    cases pc with
    | conecta => exact trivial
    | client => exact trivial
    | devuelve => exact trivial
    | shared =>
      rcases hcells with hno | ⟨hclient, -, -⟩
      · cases hno
      · exact hclient.trans hl
    | sender =>
      rcases hcells with hno | ⟨hclient, hshared, -⟩
      · cases hno
      · exact ⟨hclient.trans hl.1, hshared.trans hl.2⟩
    | notifications =>
      cases modo with
      | participant => exact trivial
      | observer =>
        rcases hcells with hno | ⟨-, -, hsender⟩
        · cases hno
        · exact hsender.trans hl
  | send pc =>
    cases pc with
    | client => exact trivial
    | sender => exact trivial
    | shared =>
      rcases hguard with hno | ⟨hguard, -⟩
      · exact absurd hl hno
      · exact hguard.trans hl
    | enviando client sender shared =>
      rcases hguard with hno | ⟨hguard, hsender⟩
      · exact absurd hl.2.2.2 hno
      · exact ⟨hl.1, hl.2.1, hsender.trans hl.2.2.1, hguard.trans hl.2.2.2⟩

/-- The call `n` goes to `h`. -/
theorem Coherente.of_update (hs : Coherente s) (hhilos : s'.hilos = Function.update s.hilos n h)
    (hn : s'.Local n h) (hothers : ∀ m, m ≠ n → s'.Local m (s.hilos m))
    (hguarda : h.guarda = true → ∀ m, m ≠ n → (s.hilos m).guarda = false)
    (hquieta : h.aMedias = false → (∀ m, m ≠ n → (s.hilos m).aMedias = false) →
      ∀ j, s'.senderKeys = some j → s'.client = some j ∧ s'.sharedKeys = some j)
    (htarde : s'.senderKeys ≠ none → ∀ o m, (o, m) ∈ s'.devueltos → ∃ p ∈ s'.guardados, m ≤ p)
    (hfrescos : ∀ m, s'.lanzados ≤ m → m ≠ n ∧ s.lanzados ≤ m) : Coherente s' where
  local_ := by
    intro m
    rw [hhilos]
    by_cases hm : m = n
    · rw [hm, Function.update_self]
      exact hn
    · rw [Function.update_of_ne hm]
      exact hothers m hm
  unica := by
    intro m m' hm hm'
    rw [hhilos] at hm hm'
    by_cases heq : m = n
    · by_cases heq' : m' = n
      · rw [heq, heq']
      · rw [heq, Function.update_self] at hm
        rw [Function.update_of_ne heq', hguarda hm m' heq'] at hm'
        cases hm'
    · rw [Function.update_of_ne heq] at hm
      by_cases heq' : m' = n
      · rw [heq', Function.update_self] at hm'
        rw [hguarda hm' m heq] at hm
        cases hm
      · rw [Function.update_of_ne heq'] at hm'
        exact hs.unica m m' hm hm'
  quieta := by
    intro hno
    rw [hhilos] at hno
    apply hquieta
    · have h := hno n
      rwa [Function.update_self] at h
    · intro m hm
      have h := hno m
      rwa [Function.update_of_ne hm] at h
  tarde := htarde
  frescos := by
    intro m hm
    obtain ⟨hne, hle⟩ := hfrescos m hm
    rw [hhilos, Function.update_of_ne hne]
    exact hs.frescos m hle

theorem Coherente.lanzado (hs : Coherente s) (hn : s.hilos n ≠ .fin) : n < s.lanzados := by
  by_contra hle
  exact hn (hs.frescos n (Nat.not_lt.mp hle))

theorem Coherente.fresco_of_lanzado (hs : Coherente s) (hn : s.hilos n ≠ .fin) {m : ℕ}
    (hm : s.lanzados ≤ m) : m ≠ n ∧ s.lanzados ≤ m := by
  have hlt := hs.lanzado hn
  exact ⟨by omega, hm⟩

/-- The call moves and nothing is stored. -/
theorem Coherente.mueve (hs : Coherente s) (hn : s.hilos n ≠ .fin)
    (hhilos : s'.hilos = Function.update s.hilos n h) (hclient : s'.client = s.client)
    (hshared : s'.sharedKeys = s.sharedKeys) (hsender : s'.senderKeys = s.senderKeys)
    (hguardados : s'.guardados = s.guardados) (hdevueltos : s'.devueltos = s.devueltos)
    (hlanzados : s'.lanzados = s.lanzados) (hlocal : s'.Local n h)
    (hguarda : h.guarda = false) (hmedias : (s.hilos n).aMedias = false)
    (hguard : s'.senderGuard = s.senderGuard ∨ ∀ m, m ≠ n → s.senderGuard ≠ some m) :
    Coherente s' := by
  apply hs.of_update hhilos hlocal
  · intro m hm
    apply (hs.local_ m).mono (Or.inr ⟨hclient, hshared, hsender⟩)
    rcases hguard with hguard | hguard
    · exact Or.inr ⟨hguard, hsender⟩
    · exact Or.inl (hguard m hm)
  · intro h
    rw [hguarda] at h
    cases h
  · intro _ hothers
    rw [hclient, hshared, hsender]
    apply hs.quieta
    intro m
    by_cases hm : m = n
    · rw [hm]
      exact hmedias
    · exact hothers m hm
  · rw [hsender, hdevueltos, hguardados]
    exact hs.tarde
  · intro m hm
    exact hs.fresco_of_lanzado hn (hlanzados ▸ hm)

theorem Coherente.lanza (hs : Coherente s) (hh : ∀ s' m, Local s' m h)
    (hguarda : h.guarda = false) : Coherente (s.lanza h) := by
  have hfin := hs.frescos s.lanzados (Nat.le_refl _)
  apply hs.of_update rfl (hh _ _)
  · intro m _
    exact (hs.local_ m).mono (Or.inr ⟨rfl, rfl, rfl⟩) (Or.inr ⟨rfl, rfl⟩)
  · intro h
    rw [hguarda] at h
    cases h
  · intro _ hothers
    apply hs.quieta
    intro m
    by_cases hm : m = s.lanzados
    · rw [hm, hfin]
      rfl
    · exact hothers m hm
  · exact hs.tarde
  · intro m hm
    have hlt : s.lanzados + 1 ≤ m := hm
    omega

theorem Coherente.suelta (hs : Coherente s) {pc : PcSend} (hn : s.hilos n = .send pc)
    (hguard : s.senderGuard = some n) : Coherente (s.suelta n) := by
  refine hs.mueve (h := .fin) (by rw [hn]; nofun) rfl rfl rfl rfl rfl rfl rfl trivial rfl ?_ ?_
  · rw [hn]
    rfl
  · right
    intro m hm h
    rw [hguard] at h
    exact hm (Option.some.inj h).symm

/-- While an init stores, no other does. -/
theorem Coherente.sola (hs : Coherente s) (hn : (s.hilos n).guarda = true) {m : ℕ} (hm : m ≠ n) :
    (s.hilos m).guarda = false := by
  rw [← Bool.not_eq_true]
  intro h
  exact hm (hs.unica m n h hn)

/-- An init stores while no other does. -/
theorem Coherente.almacena (hs : Coherente s) (hn : s.hilos n ≠ .fin)
    (hsola : ∀ m, m ≠ n → (s.hilos m).guarda = false)
    (hhilos : s'.hilos = Function.update s.hilos n h) (hlanzados : s'.lanzados = s.lanzados)
    (hlocal : s'.Local n h)
    (hguard : s.senderGuard = none ∨
      s'.senderGuard = s.senderGuard ∧ s'.senderKeys = s.senderKeys)
    (hquieta : h.aMedias = false → ∀ j, s'.senderKeys = some j →
      s'.client = some j ∧ s'.sharedKeys = some j)
    (htarde : s'.senderKeys ≠ none → ∀ o m, (o, m) ∈ s'.devueltos → ∃ p ∈ s'.guardados, m ≤ p) :
    Coherente s' := by
  apply hs.of_update hhilos hlocal
  · intro m hm
    apply (hs.local_ m).mono (Or.inl (hsola m hm))
    rcases hguard with hguard | hguard
    · left
      rw [hguard]
      exact (Option.some_ne_none m).symm
    · exact Or.inr hguard
  · exact fun _ => hsola
  · exact fun hmedias _ => hquieta hmedias
  · exact htarde
  · intro m hm
    exact hs.fresco_of_lanzado hn (hlanzados ▸ hm)

theorem Coherente.avanzaInit_sender (hs : Coherente s) (hord : EnOrden s n) {modo : Modo}
    (hn : s.hilos n = .init modo .sender) : Coherente (s.avanzaInit n modo .sender) := by
  have hfin : s.hilos n ≠ .fin := by
    rw [hn]
    nofun
  have hsola : ∀ m, m ≠ n → (s.hilos m).guarda = false := fun m => hs.sola (by rw [hn]; rfl)
  have hlocal : s.Local n (.init modo .sender) := hn ▸ hs.local_ n
  obtain ⟨hclient, hshared⟩ := hlocal
  cases modo with
  | participant =>
    rw [SharedKeyChat.avanzaInit]
    split
    · rename_i hguard
      refine hs.almacena (h := .init .participant .notifications) hfin hsola rfl rfl trivial
        (Or.inl hguard) ?_ ?_
      · intro _ j hj
        have heq : n = j := Option.some.inj hj
        exact heq ▸ ⟨hclient, hshared⟩
      · intro _ o m hom
        rcases hord.sender hn o m hom with hle | ⟨p, hp, hle⟩
        · exact ⟨n, List.mem_cons_self, hle⟩
        · exact ⟨p, List.mem_cons_of_mem n hp, hle⟩
    · exact hs
  | observer =>
    rw [SharedKeyChat.avanzaInit]
    split
    · rename_i hguard
      refine hs.almacena (h := .init .observer .notifications) hfin hsola rfl rfl rfl
        (Or.inl hguard) ?_ ?_
      · intro _ j hj
        cases hj
      · intro h
        exact absurd rfl h
    · exact hs

theorem Coherente.avanzaInit_notifications (hs : Coherente s) {modo : Modo}
    (hn : s.hilos n = .init modo .notifications) :
    Coherente (s.avanzaInit n modo .notifications) := by
  have hfin : s.hilos n ≠ .fin := by
    rw [hn]
    nofun
  cases modo with
  | participant =>
    refine hs.mueve (h := .init .participant .devuelve) hfin rfl rfl rfl rfl rfl rfl rfl trivial
      rfl ?_ (Or.inl rfl)
    rw [hn]
    rfl
  | observer =>
    -- the sender keys are gone since it stored, so the observers that return ask for nothing
    have hsender : s.senderKeys = none := by
      have hlocal := hs.local_ n
      rw [hn] at hlocal
      exact hlocal
    refine hs.of_update (h := .fin) rfl trivial ?_ ?_ ?_ ?_ ?_
    · intro m _
      exact (hs.local_ m).mono (Or.inr ⟨rfl, rfl, rfl⟩) (Or.inr ⟨rfl, rfl⟩)
    · intro h
      cases h
    · intro _ _ j hj
      exact absurd (hsender.symm.trans hj) nofun
    · intro h
      exact absurd hsender h
    · exact fun m hm => hs.fresco_of_lanzado hfin hm

theorem Coherente.avanzaInit (hs : Coherente s) (hord : EnOrden s n) {modo : Modo} {pc : PcInit}
    (hn : s.hilos n = .init modo pc) : Coherente (s.avanzaInit n modo pc) := by
  have hfin : s.hilos n ≠ .fin := by
    rw [hn]
    nofun
  cases pc with
  | conecta =>
    refine hs.mueve (h := .init modo .client) hfin rfl rfl rfl rfl rfl rfl rfl trivial rfl ?_
      (Or.inl rfl)
    rw [hn]
    rfl
  | client =>
    rw [SharedKeyChat.avanzaInit]
    split
    · exact hs.almacena (h := .init modo .shared) hfin (fun m _ => hord.store modo hn m) rfl rfl
        rfl (Or.inr ⟨rfl, rfl⟩) nofun hs.tarde
    · exact hs
  | shared =>
    have hclient : s.Local n (.init modo .shared) := hn ▸ hs.local_ n
    rw [SharedKeyChat.avanzaInit]
    split
    · exact hs.almacena (h := .init modo .sender) hfin (fun m => hs.sola (by rw [hn]; rfl)) rfl
        rfl ⟨hclient, rfl⟩ (Or.inr ⟨rfl, rfl⟩) nofun hs.tarde
    · exact hs
  | sender => exact hs.avanzaInit_sender hord hn
  | notifications => exact hs.avanzaInit_notifications hn
  | devuelve =>
    rw [SharedKeyChat.avanzaInit]
    split
    · refine hs.mueve (h := .fin) hfin rfl rfl rfl rfl rfl rfl rfl trivial rfl ?_ (Or.inl rfl)
      rw [hn]
      rfl
    · exact hs

theorem Coherente.avanzaSend (hs : Coherente s) (hord : EnOrden s n) {pc : PcSend}
    (hn : s.hilos n = .send pc) : Coherente (s.avanzaSend n pc) := by
  have hfin : s.hilos n ≠ .fin := by
    rw [hn]
    nofun
  have hmedias : (s.hilos n).aMedias = false := by
    rw [hn]
    rfl
  have hlocal : s.Local n (.send pc) := hn ▸ hs.local_ n
  cases pc with
  | client =>
    rw [SharedKeyChat.avanzaSend]
    split
    · exact hs.mueve (h := .send .sender) hfin rfl rfl rfl rfl rfl rfl rfl trivial rfl hmedias
        (Or.inl rfl)
    · exact hs
  | sender =>
    rw [SharedKeyChat.avanzaSend]
    split
    · rename_i hguard
      refine hs.mueve (h := .send .shared) hfin rfl rfl rfl rfl rfl rfl rfl rfl rfl hmedias ?_
      right
      intro m _
      rw [hguard]
      nofun
    · exact hs
  | shared =>
    have hguard : s.senderGuard = some n := hlocal
    rw [SharedKeyChat.avanzaSend]
    split
    · split
      · rename_i client sender shared hclient hsender hshared
        have hsome : s.senderKeys ≠ none := by
          rw [hsender]
          nofun
        obtain ⟨hclient', hshared'⟩ := hs.quieta (hord.send hn hsome) sender hsender
        have hcs : client = sender := Option.some.inj (hclient.symm.trans hclient')
        have hss : sender = shared := Option.some.inj (hshared'.symm.trans hshared)
        exact hs.mueve (h := .send (.enviando client sender shared)) hfin rfl rfl rfl rfl rfl rfl
          rfl ⟨hcs, hss, hsender, hguard⟩ rfl hmedias (Or.inl rfl)
      · exact hs.suelta hn hguard
    · exact hs
  | enviando client sender shared => exact hs.suelta hn hlocal.2.2.2

theorem paso_coherente {e : Evento} (hs : Coherente s) (he : EnTurno s e) :
    Coherente (s.paso e) := by
  cases e with
  | initParticipant => exact hs.lanza (fun _ _ => trivial) rfl
  | initObserver => exact hs.lanza (fun _ _ => trivial) rfl
  | sendMessage => exact hs.lanza (fun _ _ => trivial) rfl
  | avanza n =>
    unfold paso
    dsimp only
    cases hn : s.hilos n with
    | init modo pc => exact hs.avanzaInit he hn
    | send pc => exact hs.avanzaSend he hn
    | fin => exact hs
  | falla n =>
    unfold paso
    dsimp only
    cases hn : s.hilos n with
    | fin => exact hs
    | init modo pc =>
      cases pc with
      | conecta =>
        refine hs.mueve (h := .fin) (by rw [hn]; nofun) rfl rfl rfl rfl rfl rfl rfl trivial rfl
          ?_ (Or.inl rfl)
        rw [hn]
        rfl
      | client => exact hs
      | shared => exact hs
      | sender => exact hs
      | notifications => exact hs
      | devuelve => exact hs
    | send pc =>
      cases pc with
      | client => exact hs
      | sender => exact hs
      | shared => exact hs
      | enviando client sender shared =>
        have hlocal : s.Local n (.send (.enviando client sender shared)) := hn ▸ hs.local_ n
        exact hs.suelta hn hlocal.2.2.2

theorem inicial_coherente : Coherente inicial where
  local_ := fun _ => trivial
  unica := by
    intro n n' h
    cases h
  quieta := by
    intro _ j hj
    cases hj
  tarde := by
    intro h
    exact absurd rfl h
  frescos := fun _ _ => rfl

theorem Coherente.unaIdentidad (hs : Coherente s) (e : Evento) : UnaIdentidad s e := by
  cases e with
  | initParticipant => exact trivial
  | initObserver => exact trivial
  | sendMessage => exact trivial
  | falla n => exact trivial
  | avanza n =>
    intro client sender shared hn
    have hlocal : s.Local n (.send (.enviando client sender shared)) := hn ▸ hs.local_ n
    obtain ⟨hcs, hss, hsender, -⟩ := hlocal
    refine ⟨hcs, hss, hs.tarde ?_⟩
    rw [hsender]
    nofun

theorem una_identidad (es : List Evento) (hes : Run.AllSteps paso EnTurno inicial es) :
    Run.AllSteps paso UnaIdentidad inicial es :=
  Run.AllSteps.of_invariant (fun _ _ hs he => paso_coherente hs he)
    (fun _ e hs _ => hs.unaIdentidad e) hes inicial_coherente

theorem una_identidad_un_envio : Run.AllSteps paso UnaIdentidad inicial
    [.initParticipant, .avanza 0, .avanza 0, .avanza 0, .avanza 0, .sendMessage, .avanza 1,
      .avanza 1, .avanza 1, .avanza 1] := by
  apply una_identidad
  refine ⟨trivial, ⟨nofun, nofun, nofun⟩, ⟨?_, nofun, nofun⟩, ⟨nofun, nofun, nofun⟩,
    ⟨nofun, ?_, nofun⟩, trivial, ⟨nofun, nofun, nofun⟩, ⟨nofun, nofun, nofun⟩,
    ⟨nofun, nofun, ?_⟩, ⟨nofun, nofun, nofun⟩, trivial⟩
  · intro _ _ n'
    rcases n' with _ | n'
    · rfl
    · rfl
  · intro _ o m hom
    cases hom
  · intro _ _ n'
    rcases n' with _ | _ | n'
    · rfl
    · rfl
    · rfl

/-- Participant 0 has stored everything, participant 1 only its client. -/
theorem mixed_send : ¬ ∀ es, Run.AllSteps paso UnaIdentidad inicial es := by
  intro h
  have hlast := Run.AllSteps.last (h ([.initParticipant, .avanza 0, .avanza 0, .avanza 0,
    .avanza 0, .initParticipant, .avanza 1, .avanza 1, .sendMessage, .avanza 2, .avanza 2,
    .avanza 2] ++ [.avanza 2]))
  have hmixed := hlast 1 0 0 rfl
  exact absurd hmixed.1 (by decide)

end SharedKeyChat
end Nerea.Nostr
