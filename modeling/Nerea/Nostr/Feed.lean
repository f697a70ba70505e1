import Mathlib.Data.List.Forall2
import Mathlib.Data.List.Sort
import Nerea.Nostr.Event
import Nerea.Shared.Narrowing
import Nerea.Shared.Whitespace

/-!
# The feeds of posts

Dates become milliseconds in a word of 64 bits, the posts are sorted by them and the API
reads them as signed. Both go wrong on dates that are large enough.
-/

set_option autoImplicit false

namespace Nerea.Nostr

/-- What the outside answers: the runtime, and a query of the relays with its timeout. -/
structure Red where
  nuevo_runtime : Except String Unit
  fetch_events : List String → ℕ → Filter → Except String (List Event)

def parsearNpub (N : Nip19) (npub : String) : Except String PublicKey :=
  context (match N.from_bech32 npub with
    | .ok pk => .ok pk
    | .error _ => N.parse npub) s!"clave inválida: {npub}"

structure Post where
  id_hex : String
  autor_npub : String
  contenido : String
  fecha_ms : UInt64

/-- `* 1000`; with overflow checks the product of a large word is a panic, `none`. -/
def por1000 (checks : Bool) (secs : UInt64) : Option UInt64 :=
  if checks ∧ 2 ^ 64 ≤ secs.toNat * 1000 then none else some (secs * 1000)

variable (checks : Bool) (N : Nip19)

def aPost (ev : Event) : Option Post := do
  let fecha_ms ← por1000 checks ev.created_at
  return ⟨ev.id.to_hex, N.to_bech32 ev.pubkey, ev.content, fecha_ms⟩

/-- Fecha ↓. -/
def ordena (out : List Post) : List Post :=
  out.mergeSort fun a b => decide (b.fecha_ms ≤ a.fecha_ms)

/-- The posts of the events that are asked for, unless the query fails. -/
def consulta (red : Red) (relays : List String) (timeout_secs : ℕ) (filtro : Filter)
    (fallo : String) (keep : Event → Bool) : Option (Except String (List Post)) :=
  match context red.nuevo_runtime "creando runtime tokio" with
  | .error e => some (.error e)
  | .ok () =>
    match context (red.fetch_events relays timeout_secs filtro) fallo with
    | .error e => some (.error e)
    | .ok events => do
      let out ← (events.filter keep).mapM (aPost checks N)
      return .ok (ordena out)

def filtroPosts (pk : PublicKey) (limite : ℕ) (desde_secs : Option UInt64) : Filter :=
  { Filter.new with
    author := some pk, kind := some .TextNote, limit := some (max limite 1), since := desde_secs }

def postsFetch (red : Red) (npub : String) (relays : List String) (limite : ℕ)
    (desde_secs : Option UInt64) (timeout_secs : ℕ) : Option (Except String (List Post)) :=
  match parsearNpub N npub with
  | .error e => some (.error e)
  | .ok pk =>
    consulta checks N red relays timeout_secs (filtroPosts pk limite desde_secs)
      "consulta a relays falló" fun _ => true

def filtroBusca (query : String) (limite : ℕ) : Filter :=
  { Filter.new with
    kind := some .TextNote, search := some query, limit := some (max limite 1) }

def buscarPosts (red : Red) (query : String) (relays : List String) (limite timeout_secs : ℕ) :
    Option (Except String (List Post)) :=
  if Whitespace.trimBoth Whitespace.isWhiteSpace query.toList = [] then some (.ok [])
  else
    consulta checks N red relays timeout_secs (filtroBusca query limite)
      "búsqueda de posts falló" fun _ => true

def filtroNotificaciones (pk : PublicKey) (limite : ℕ) : Filter :=
  { Filter.new with
    pubkey := some pk, kind := some .TextNote, limit := some (max limite 1) }

/-- Mis propios posts no cuentan. -/
def notificacionesFetch (red : Red) (mi_npub : String) (relays : List String)
    (limite timeout_secs : ℕ) : Option (Except String (List Post)) :=
  match parsearNpub N mi_npub with
  | .error e => some (.error e)
  | .ok pk =>
    consulta checks N red relays timeout_secs (filtroNotificaciones pk limite)
      "notificaciones falló" fun ev => decide (ev.pubkey ≠ pk)

structure PostItem where
  id_hex : String
  autor_npub : String
  contenido : String
  fecha_ms : Int64

def aItem (p : Post) : PostItem := ⟨p.id_hex, p.autor_npub, p.contenido, p.fecha_ms.toInt64⟩

def aRelays (relays : List String) : List String :=
  if relays.isEmpty then
    ["wss://relay.damus.io", "wss://nos.social", "wss://relay.nostr.band",
      "wss://search.nos.today"]
  else relays

def aItems (r : Option (Except String (List Post))) : Option (Except String (List PostItem)) :=
  r.map fun r => r.map fun v => v.map aItem

/-- 0 = sin límite de tiempo. -/
def desdeSecs (desde_ms : ℤ) : Option UInt64 :=
  if 0 < desde_ms then some (UInt64.ofNat (max (desde_ms / 1000) 0).toNat) else none

def nostrPostsFetch (red : Red) (npub : String) (relays : List String)
    (limite desde_ms timeout_secs : ℤ) : Option (Except String (List PostItem)) :=
  aItems (postsFetch checks N red npub (aRelays relays) (max limite 1).toNat
    (desdeSecs desde_ms) (max timeout_secs 1).toNat)

def nostrBuscarPosts (red : Red) (query : String) (relays : List String)
    (limite timeout_secs : ℤ) : Option (Except String (List PostItem)) :=
  aItems (buscarPosts checks N red query (aRelays relays) (max limite 1).toNat
    (max timeout_secs 1).toNat)

def nostrNotificaciones (red : Red) (mi_npub : String) (relays : List String)
    (limite timeout_secs : ℤ) : Option (Except String (List PostItem)) :=
  aItems (notificacionesFetch checks N red mi_npub (aRelays relays) (max limite 1).toNat
    (max timeout_secs 1).toNat)

structure Muestra (ev : Event) (it : PostItem) : Prop where
  id_hex : it.id_hex = ev.id.to_hex
  autor_npub : it.autor_npub = N.to_bech32 ev.pubkey
  contenido : it.contenido = ev.content

/-- Without an overflow, every event once and from the last one down, by its own date and by
the one that is shown. -/
structure Fiel (events : List Event) (r : Option (Except String (List PostItem))) : Prop where
  sinDesborde : ∀ ev ∈ events, ev.created_at.toNat * 1000 < 2 ^ 64
  todos : ∃ es items, r = some (.ok items) ∧ es.Perm events ∧ List.Forall₂ (Muestra N) es items ∧
    es.Pairwise (fun a b => b.created_at ≤ a.created_at) ∧
    (∀ it ∈ items, 0 ≤ it.fecha_ms) ∧ items.Pairwise fun a b => b.fecha_ms ≤ a.fecha_ms

def EnRango (events : List Event) : Prop :=
  ∀ ev ∈ events, ev.created_at.toNat * 1000 < 2 ^ 63

variable {checks N}

/-- The post of a date that does not overflow. -/
def postDe (N : Nip19) (ev : Event) : Post :=
  ⟨ev.id.to_hex, N.to_bech32 ev.pubkey, ev.content, ev.created_at * 1000⟩

theorem aPost_eq {ev : Event} (h : ev.created_at.toNat * 1000 < 2 ^ 64) :
    aPost checks N ev = some (postDe N ev) := by
  have hchecks : ¬ (checks = true ∧ 2 ^ 64 ≤ ev.created_at.toNat * 1000) := fun hc =>
    Nat.not_le.mpr h hc.2
  rw [aPost, por1000, if_neg hchecks]
  rfl

theorem mapM_aPost {events : List Event}
    (h : ∀ ev ∈ events, ev.created_at.toNat * 1000 < 2 ^ 64) :
    events.mapM (aPost checks N) = some (events.map (postDe N)) := by
  induction events with
  | nil => rfl
  | cons ev events ih =>
    have hrest := ih fun ev' hev' => h ev' (List.mem_cons_of_mem ev hev')
    rw [List.mapM_cons, aPost_eq (h ev List.mem_cons_self), hrest]
    rfl

theorem toNat_mul {c : UInt64} (h : c.toNat * 1000 < 2 ^ 64) :
    (c * 1000).toNat = c.toNat * 1000 := by
  rw [UInt64.toNat_mul]
  exact Nat.mod_eq_of_lt h

/-- The events as the posts are sorted. -/
def porFecha (events : List Event) : List Event :=
  events.mergeSort fun a b => decide (b.created_at * 1000 ≤ a.created_at * 1000)

theorem porFecha_pairwise (events : List Event) :
    (porFecha events).Pairwise fun a b => b.created_at * 1000 ≤ a.created_at * 1000 := by
  have htotal : Std.Total fun a b : Event => b.created_at * 1000 ≤ a.created_at * 1000 :=
    ⟨fun a b => UInt64.le_total _ _⟩
  have htrans : IsTrans Event fun a b => b.created_at * 1000 ≤ a.created_at * 1000 :=
    ⟨fun _ _ _ hab hbc => UInt64.le_trans hbc hab⟩
  exact List.pairwise_mergeSort' (fun a b => b.created_at * 1000 ≤ a.created_at * 1000) events

theorem ordena_map (events : List Event) :
    ordena (events.map (postDe N)) = (porFecha events).map (postDe N) := by
  rw [ordena, porFecha, List.map_mergeSort]
  exact fun a _ b _ => rfl

theorem aItems_consulta {red : Red} {relays : List String} {timeout_secs : ℕ} {filtro : Filter}
    {events : List Event} (hruntime : red.nuevo_runtime = .ok ())
    (hfetch : red.fetch_events relays timeout_secs filtro = .ok events) (fallo : String)
    {keep : Event → Bool}
    (h : ∀ ev ∈ events.filter keep, ev.created_at.toNat * 1000 < 2 ^ 64) :
    aItems (consulta checks N red relays timeout_secs filtro fallo keep) =
      some (.ok ((porFecha (events.filter keep)).map fun ev => aItem (postDe N ev))) := by
  unfold consulta
  rw [hruntime, hfetch]
  simp only [context, Except.mapError, mapM_aPost h, Option.bind_eq_bind, Option.bind_some,
    ordena_map]
  change some (Except.ok (((porFecha (events.filter keep)).map (postDe N)).map aItem)) = _
  rw [List.map_map]
  rfl

theorem fiel_iff (checks : Bool) (N : Nip19) {red : Red} {relays : List String}
    {timeout_secs : ℕ} {filtro : Filter} {events : List Event}
    (hruntime : red.nuevo_runtime = .ok ())
    (hfetch : red.fetch_events relays timeout_secs filtro = .ok events) (fallo : String)
    (keep : Event → Bool) :
    Fiel N (events.filter keep)
        (aItems (consulta checks N red relays timeout_secs filtro fallo keep)) ↔
      EnRango (events.filter keep) := by
  have hperm : (porFecha (events.filter keep)).Perm (events.filter keep) := List.mergeSort_perm _ _
  constructor
  · intro h ev hev
    obtain ⟨es, items, hr, -, -, -, hnonneg, -⟩ := h.todos
    rw [aItems_consulta hruntime hfetch fallo h.sinDesborde] at hr
    cases hr
    have hdate := hnonneg _ (List.mem_map_of_mem (hperm.mem_iff.mpr hev))
    rw [← toNat_mul (h.sinDesborde ev hev)]
    exact Narrowing.toInt64_nonneg_iff.mp hdate
  · intro h
    have hdesborde : ∀ ev ∈ events.filter keep, ev.created_at.toNat * 1000 < 2 ^ 64 :=
      fun ev hev => (h ev hev).trans (by decide)
    have hmillis : ∀ ev ∈ porFecha (events.filter keep), (ev.created_at * 1000).toNat < 2 ^ 63 := by
      intro ev hev
      have hmem := hperm.mem_iff.mp hev
      rw [toNat_mul (hdesborde ev hmem)]
      exact h ev hmem
    refine ⟨hdesborde, porFecha (events.filter keep), _,
      aItems_consulta hruntime hfetch fallo hdesborde, hperm, ?_, ?_, ?_, ?_⟩
    · rw [List.forall₂_map_right_iff, List.forall₂_same]
      exact fun ev _ => ⟨rfl, rfl, rfl⟩
    · apply (porFecha_pairwise _).imp_of_mem
      intro a b ha hb hle
      rw [UInt64.le_iff_toNat_le, toNat_mul (hdesborde a (hperm.mem_iff.mp ha)),
        toNat_mul (hdesborde b (hperm.mem_iff.mp hb))] at hle
      exact UInt64.le_iff_toNat_le.mpr (Nat.le_of_mul_le_mul_right hle (by decide))
    · rw [List.forall_mem_map]
      intro ev hev
      exact Narrowing.toInt64_nonneg_iff.mpr (hmillis ev hev)
    · rw [List.pairwise_map]
      apply (porFecha_pairwise _).imp_of_mem
      intro a b ha hb hle
      exact (Narrowing.toInt64_le_toInt64 (hmillis b hb) (hmillis a ha)).mpr hle

/-- The filter that is asked for, and the reply of the relays to it. -/
def Responde (red : Red) (relays : List String) (timeout_secs : ℤ) (filtro : Filter)
    (events : List Event) : Prop :=
  red.nuevo_runtime = .ok () ∧
    red.fetch_events (aRelays relays) (max timeout_secs 1).toNat filtro = .ok events

/-- A feed shows what was fetched, in order, exactly when every date it shows is less than
2^63 milliseconds. -/
theorem feed_iff (checks : Bool) (N : Nip19) (red : Red) (relays : List String)
    (limite timeout_secs : ℤ) :
    (∀ npub desde_ms pk events, parsearNpub N npub = .ok pk →
      Responde red relays timeout_secs
        (filtroPosts pk (max limite 1).toNat (desdeSecs desde_ms)) events →
      (Fiel N events (nostrPostsFetch checks N red npub relays limite desde_ms timeout_secs) ↔
        EnRango events)) ∧
    (∀ query events, Whitespace.trimBoth Whitespace.isWhiteSpace query.toList ≠ [] →
      Responde red relays timeout_secs (filtroBusca query (max limite 1).toNat) events →
      (Fiel N events (nostrBuscarPosts checks N red query relays limite timeout_secs) ↔
        EnRango events)) ∧
    ∀ mi_npub pk events, parsearNpub N mi_npub = .ok pk →
      Responde red relays timeout_secs (filtroNotificaciones pk (max limite 1).toNat) events →
      (Fiel N (events.filter fun ev => decide (ev.pubkey ≠ pk))
          (nostrNotificaciones checks N red mi_npub relays limite timeout_secs) ↔
        EnRango (events.filter fun ev => decide (ev.pubkey ≠ pk))) := by
  refine ⟨fun npub desde_ms pk events hnpub hred => ?_, fun query events hquery hred => ?_,
    fun mi_npub pk events hnpub hred => ?_⟩
  · have hall : events.filter (fun _ => true) = events := List.filter_true events
    have hiff := fiel_iff checks N hred.1 hred.2 "consulta a relays falló"
      fun _ => true
    rw [hall] at hiff
    simp only [nostrPostsFetch, postsFetch, hnpub]
    exact hiff
  · have hall : events.filter (fun _ => true) = events := List.filter_true events
    have hiff := fiel_iff checks N hred.1 hred.2 "búsqueda de posts falló"
      fun _ => true
    rw [hall] at hiff
    simp only [nostrBuscarPosts, buscarPosts, if_neg hquery]
    exact hiff
  · simp only [nostrNotificaciones, notificacionesFetch, hnpub]
    exact fiel_iff checks N hred.1 hred.2 "notificaciones falló" fun ev =>
      decide (ev.pubkey ≠ pk)

def nota : Event := ⟨claveCero, claveCero, 1700000000, .TextNote, [], "hola"⟩

def respuesta : Event := ⟨claveCero, claveCero, 1700000060, .TextNote, [], "hola, ana"⟩

/-- The older one is answered first. -/
theorem feed_two_posts : Fiel nip19Cero [nota, respuesta] (nostrBuscarPosts false nip19Cero
    ⟨.ok (), fun _ _ _ => .ok [nota, respuesta]⟩ "hola" [] 2 1) := by
  have hiff := (feed_iff false nip19Cero ⟨.ok (), fun _ _ _ => .ok [nota, respuesta]⟩ [] 2 1).2.1
    "hola" [nota, respuesta] (by decide) ⟨rfl, rfl⟩
  apply hiff.mpr
  intro ev hev
  rcases List.mem_pair.mp hev with rfl | rfl
  · decide
  · decide

/-- The last date there is. -/
def hostil : Event := ⟨claveCero, claveCero, 18446744073709551615, .TextNote, [], ""⟩

theorem hostile_timestamp : ¬ ∀ checks N red relays limite timeout_secs query events,
    Whitespace.trimBoth Whitespace.isWhiteSpace query.toList ≠ [] →
    Responde red relays timeout_secs (filtroBusca query (max limite 1).toNat) events →
    Fiel N events (nostrBuscarPosts checks N red query relays limite timeout_secs) := by
  intro h
  have hfiel := h false nip19Cero ⟨.ok (), fun _ _ _ => .ok [hostil]⟩ [] 1 1 "a" [hostil]
    (by decide) ⟨rfl, rfl⟩
  exact absurd (hfiel.sinDesborde hostil List.mem_cons_self) (by decide)

end Nerea.Nostr
