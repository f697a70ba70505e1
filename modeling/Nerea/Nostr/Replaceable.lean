import Nerea.Nostr.Event
import Nerea.Shared.Projection

/-!
# Editing the contact list and the profile

Both events are built anew: the list from the keys of the one that was fetched, or from
nothing when none was, and the profile from the arguments alone. What stood in the event
before besides that is lost.
-/

set_option autoImplicit false

namespace Nerea.Nostr

/-- What the `nostr` crate does with tags: the key of a standardized `p` tag, and which tags
a builder keeps for an author. It may drop those that name the author. -/
structure Etiquetas where
  public_key : Tag → Option PublicKey
  conserva : PublicKey → Tag → Bool
  public_key_tag : ∀ pk, public_key (Tag.public_key pk) = some pk
  conserva_of_ne : ∀ me t, public_key t ≠ some me → conserva me t = true

/-- What is signed and sent. -/
structure UnsignedEvent where
  kind : Kind
  content : String
  tags : List Tag

variable (T : Etiquetas) (N : Nip19)

def build (me : PublicKey) (ev : UnsignedEvent) : UnsignedEvent :=
  { ev with tags := ev.tags.filter (T.conserva me) }

def publicKeys (tags : List Tag) : List PublicKey := tags.filterMap T.public_key

/-- The last of the latest. -/
def maxByCreatedAt (evs : List Event) : Option Event :=
  evs.foldl (fun best ev =>
    match best with
    | none => some ev
    | some b => if b.created_at ≤ ev.created_at then some ev else some b) none

def pkDe (npub : String) : Except String PublicKey :=
  context (match N.from_bech32 npub with
    | .ok pk => .ok pk
    | .error _ => N.parse npub) "clave pública inválida"

def filtroContactos (me : PublicKey) : Filter :=
  { Filter.new with author := some me, kind := some .ContactList, limit := some 1 }

/-- The tags of the list that was fetched; a fetch that finds none is an empty list. -/
def leidos (evs : List Event) : List Tag := ((maxByCreatedAt evs).map (·.tags)).getD []

/-- Mis contactos actuales (kind 3 más reciente, tags p). -/
def seguidos (me : PublicKey) (fetch_events : Filter → Except String (List Event)) :
    Except String (List String) := do
  let evs ← context (fetch_events (filtroContactos me)) "fetch contactos falló"
  return (publicKeys T (leidos evs)).map N.to_bech32

/-- The list that `seguir` sends. -/
def listaNueva (me : PublicKey) (fetch_events : Filter → Except String (List Event))
    (npub : String) (seguir : Bool) : Except String UnsignedEvent := do
  let target ← pkDe N npub
  let actuales ← seguidos T N me fetch_events
  let lista := actuales.filterMap fun s => (N.from_bech32 s).toOption
  let lista := lista.filter fun p => decide (p ≠ target)
  let lista := if seguir then lista ++ [target] else lista
  return build T me ⟨.ContactList, "", lista.map Tag.public_key⟩

/-- Agrega o quita un npub de mi lista kind 3 y la republica. What is sent, and the list as it
is fetched again after that. -/
def seguir (me : PublicKey) (fetch_events fetch_events' : Filter → Except String (List Event))
    (send_event : UnsignedEvent → Except String Unit) (npub : String) (seguir : Bool) :
    List UnsignedEvent × Except String (List String) :=
  match listaNueva T N me fetch_events npub seguir with
  | .error e => ([], .error e)
  | .ok ev =>
    ([ev], do
      context (send_event ev) "contact list falló"
      seguidos T N me fetch_events')

/-- A `p` tag of the key is not among what has to stay. -/
def ajena (target : PublicKey) (t : Tag) : Bool :=
  (T.public_key t).all fun pk => decide (pk ≠ target)

/-- The user's last list before the edit; none is an empty one. -/
structure Lista where
  content : String
  tags : List Tag

/-- The list with the target's tag or without it, and nothing else changed. -/
structure SoloCambia (target : PublicKey) (seguir : Bool) (ultima : Lista) (ev : UnsignedEvent) :
    Prop where
  kind : ev.kind = .ContactList
  content : ev.content = ultima.content
  resto : ev.tags.filter (ajena T target) = ultima.tags.filter (ajena T target)
  presencia : (∃ t ∈ ev.tags, T.public_key t = some target) ↔ seguir = true

/-- The list before is nothing but the bare tags of keys, and those were fetched. -/
structure Reconstruible (me target : PublicKey) (seguir : Bool) (ultima : Lista)
    (evs : List Event) : Prop where
  content : ultima.content = ""
  simples : ∀ t ∈ ultima.tags, T.public_key t ≠ some target → ∃ pk, t = Tag.public_key pk
  mismos : (publicKeys T ultima.tags).filter (fun pk => decide (pk ≠ target)) =
    ((publicKeys T (leidos evs)).filter (fun pk => decide (pk ≠ target))).filter
      fun pk => T.conserva me (Tag.public_key pk)
  propia : seguir = true → T.conserva me (Tag.public_key target) = true

/-- The fields of a profile, and others by name. -/
structure Metadata (V : Type) where
  name : Option String
  display_name : Option String
  about : Option String
  website : Option String
  picture : Option String
  banner : Option String
  nip05 : Option String
  lud06 : Option String
  lud16 : Option String
  custom : List (String × V)
deriving DecidableEq

section Perfil
variable {V : Type}

def Metadata.new : Metadata V := ⟨none, none, none, none, none, none, none, none, none, []⟩

variable [DecidableEq V]

/-- The profile that `set_perfil` sends. `url_parse` checks a URL. -/
def perfilNuevo (url_parse : String → Except String Unit)
    (name display_name about picture : String) : Except String (Metadata V) := do
  let md : Metadata V := .new
  let md := if name.isEmpty then md else { md with name := some name }
  let md := if display_name.isEmpty then md else { md with display_name := some display_name }
  let md := if about.isEmpty then md else { md with about := some about }
  let md ←
    if picture.isEmpty then pure md
    else
      -- validamos que sea URL bien formada; el campo guarda String
      match url_parse picture with
      | .error e => .error s!"URL de foto inválida: {e}"
      | .ok () => .ok { md with picture := some picture }
  if md = .new then .error "todo vacío: no hay nada que publicar" else pure md

/-- Publica mi perfil kind 0. Campos vacíos no se tocan. -/
def setPerfil (url_parse : String → Except String Unit)
    (set_metadata : Metadata V → Except String Unit)
    (name display_name about picture : String) : List (Metadata V) × Except String Unit :=
  match perfilNuevo url_parse name display_name about picture with
  | .error e => ([], .error e)
  | .ok md => ([md], context (set_metadata md) "set_metadata")

end Perfil

/-- The profile with the arguments that are not empty in place of its fields. -/
def Metadata.con {V : Type} (md : Metadata V) (name display_name about picture : String) :
    Metadata V :=
  { md with
    name := if name.isEmpty then md.name else some name
    display_name := if display_name.isEmpty then md.display_name else some display_name
    about := if about.isEmpty then md.about else some about
    picture := if picture.isEmpty then md.picture else some picture }

/-- No field is set that no argument replaces. -/
structure Metadata.Cubierto {V : Type} (md : Metadata V)
    (name display_name about picture : String) : Prop where
  name : name = "" → md.name = none
  display_name : display_name = "" → md.display_name = none
  about : about = "" → md.about = none
  picture : picture = "" → md.picture = none
  website : md.website = none
  banner : md.banner = none
  nip05 : md.nip05 = none
  lud06 : md.lud06 = none
  lud16 : md.lud16 = none
  custom : md.custom = []

variable {T N}

theorem filterMap_to_bech32 (pks : List PublicKey) :
    (pks.map N.to_bech32).filterMap (fun s => (N.from_bech32 s).toOption) = pks := by
  apply Projection.filterMap_map_put
  intro pk
  rw [N.from_bech32_to_bech32]
  rfl

/-- The keys that are sent, the target aside. -/
def otros (T : Etiquetas) (me target : PublicKey) (evs : List Event) : List PublicKey :=
  ((publicKeys T (leidos evs)).filter fun pk => decide (pk ≠ target)).filter
    fun pk => T.conserva me (Tag.public_key pk)

theorem otros_ne {me target : PublicKey} {evs : List Event} {pk : PublicKey}
    (h : pk ∈ otros T me target evs) : pk ≠ target := by
  have hpk := (List.mem_filter.mp (List.mem_filter.mp h).1).2
  exact of_decide_eq_true hpk

/-- The target's tag, if it is to be there and is kept. -/
def propia (T : Etiquetas) (me target : PublicKey) (seguir : Bool) : List Tag :=
  if seguir = true ∧ T.conserva me (Tag.public_key target) = true then [Tag.public_key target]
  else []

theorem listaNueva_eq {me target : PublicKey}
    {fetch_events : Filter → Except String (List Event)} {npub : String} {evs : List Event}
    (hnpub : pkDe N npub = .ok target) (hfetch : fetch_events (filtroContactos me) = .ok evs)
    (seguir : Bool) :
    listaNueva T N me fetch_events npub seguir = .ok ⟨.ContactList, "",
      (otros T me target evs).map Tag.public_key ++ propia T me target seguir⟩ := by
  have hseguidos : seguidos T N me fetch_events =
      .ok ((publicKeys T (leidos evs)).map N.to_bech32) := by
    rw [seguidos, hfetch]
    rfl
  have hmap : ∀ pks : List PublicKey, (pks.map Tag.public_key).filter (T.conserva me) =
      (pks.filter fun pk => T.conserva me (Tag.public_key pk)).map Tag.public_key := by
    intro pks
    rw [List.filter_map]
    rfl
  rw [listaNueva, hnpub, hseguidos]
  change Except.ok (build T me ⟨_, _, _⟩) = _
  rw [build, filterMap_to_bech32, hmap]
  cases seguir with
  | false => simp [propia, otros]
  | true =>
    rw [if_pos rfl, List.filter_append, List.map_append]
    cases hkept : T.conserva me (Tag.public_key target) with
    | false => simp [propia, otros, hkept]
    | true => simp [propia, otros, hkept]

theorem ajena_iff {target : PublicKey} {t : Tag} :
    ajena T target t = true ↔ T.public_key t ≠ some target := by
  unfold ajena
  cases T.public_key t with
  | none => simp
  | some pk => simp

theorem ajena_public_key {target pk : PublicKey} :
    ajena T target (Tag.public_key pk) = decide (pk ≠ target) := by
  rw [ajena, T.public_key_tag]
  rfl

theorem filter_ajena {me target : PublicKey} (seguir : Bool) (evs : List Event) :
    ((otros T me target evs).map Tag.public_key ++ propia T me target seguir).filter
        (ajena T target) = (otros T me target evs).map Tag.public_key := by
  have hotros : ((otros T me target evs).map Tag.public_key).filter (ajena T target) =
      (otros T me target evs).map Tag.public_key := by
    rw [List.filter_eq_self]
    intro t ht
    obtain ⟨pk, hpk, rfl⟩ := List.mem_map.mp ht
    rw [ajena_public_key]
    exact decide_eq_true (otros_ne hpk)
  have hpropia : (propia T me target seguir).filter (ajena T target) = [] := by
    unfold propia
    split
    · simp [ajena_public_key]
    · rfl
  rw [List.filter_append, hotros, hpropia, List.append_nil]

theorem presencia_iff {me target : PublicKey} (seguir : Bool) (evs : List Event) :
    (∃ t ∈ (otros T me target evs).map Tag.public_key ++ propia T me target seguir,
      T.public_key t = some target) ↔
      seguir = true ∧ T.conserva me (Tag.public_key target) = true := by
  constructor
  · intro h
    obtain ⟨t, ht, htarget⟩ := h
    rcases List.mem_append.mp ht with ht | ht
    · obtain ⟨pk, hpk, rfl⟩ := List.mem_map.mp ht
      rw [T.public_key_tag] at htarget
      exact absurd (Option.some.inj htarget) (otros_ne hpk)
    · unfold propia at ht
      split at ht
      · assumption
      · cases ht
  · intro h
    refine ⟨Tag.public_key target, List.mem_append_right _ ?_, T.public_key_tag target⟩
    rw [propia, if_pos h]
    exact List.mem_singleton_self _

theorem soloCambia_iff {me target : PublicKey} (seguir : Bool) (ultima : Lista)
    (evs : List Event) :
    SoloCambia T target seguir ultima ⟨.ContactList, "",
        (otros T me target evs).map Tag.public_key ++ propia T me target seguir⟩ ↔
      Reconstruible T me target seguir ultima evs := by
  have hresto := Projection.map_put_eq_iff T.public_key_tag (otros T me target evs)
    (ultima.tags.filter (ajena T target))
  have hkeys : (ultima.tags.filter (ajena T target)).filterMap T.public_key =
      (publicKeys T ultima.tags).filter fun pk => decide (pk ≠ target) :=
    Projection.filterMap_filter_key _ _
  rw [hkeys] at hresto
  constructor
  · intro h
    have hbare := hresto.mp ((filter_ajena seguir evs).symm.trans h.resto)
    refine ⟨h.content.symm, fun t ht hne => ?_, hbare.2, fun hs => ?_⟩
    · exact hbare.1 t (List.mem_filter.mpr ⟨ht, ajena_iff.mpr hne⟩)
    · exact ((presencia_iff seguir evs).mp (h.presencia.mpr hs)).2
  · intro h
    refine ⟨rfl, h.content.symm, (filter_ajena seguir evs).trans (hresto.mpr ⟨?_, h.mismos⟩), ?_⟩
    · intro t ht
      obtain ⟨ht, hajena⟩ := List.mem_filter.mp ht
      exact h.simples t ht (ajena_iff.mp hajena)
    · exact (presencia_iff seguir evs).trans ⟨fun hs => hs.1, fun hs => ⟨hs, h.propia hs⟩⟩

theorem seguir_iff (T : Etiquetas) (N : Nip19) (me : PublicKey)
    (fetch_events fetch_events' : Filter → Except String (List Event))
    (send_event : UnsignedEvent → Except String Unit) (npub : String) (b : Bool)
    (ultima : Lista) :
    (∀ target ev, pkDe N npub = .ok target →
      ev ∈ (seguir T N me fetch_events fetch_events' send_event npub b).1 →
      SoloCambia T target b ultima ev) ↔
    ∀ target evs, pkDe N npub = .ok target → fetch_events (filtroContactos me) = .ok evs →
      Reconstruible T me target b ultima evs := by
  constructor
  · intro h target evs hnpub hfetch
    rw [← soloCambia_iff]
    apply h target _ hnpub
    rw [seguir, listaNueva_eq hnpub hfetch]
    exact List.mem_singleton_self _
  · intro h target ev hnpub hev
    cases hfetch : fetch_events (filtroContactos me) with
    | error e =>
      have hnone : listaNueva T N me fetch_events npub b =
          .error ("fetch contactos falló: " ++ e) := by
        rw [listaNueva, hnpub, seguidos, hfetch]
        rfl
      rw [seguir, hnone] at hev
      cases hev
    | ok evs =>
      rw [seguir, listaNueva_eq hnpub hfetch] at hev
      rw [List.mem_singleton.mp hev, soloCambia_iff]
      exact h target evs hnpub hfetch

section Perfil
variable {V : Type} (url_parse : String → Except String Unit)
  (name display_name about picture : String)

/-- Some field is given, and the picture if it is given is a URL. -/
def Publica : Prop :=
  ¬ (name = "" ∧ display_name = "" ∧ about = "" ∧ picture = "") ∧
    (picture ≠ "" → url_parse picture = .ok ())

variable {url_parse name display_name about picture}

theorem campo_iff {arg : String} {viejo : Option String} :
    (if arg.isEmpty then none else some arg) = (if arg.isEmpty then viejo else some arg) ↔
      (arg = "" → viejo = none) := by
  by_cases h : arg = ""
  · have hempty : arg.isEmpty = true := by simpa using h
    rw [if_pos hempty, if_pos hempty]
    exact ⟨fun heq _ => heq.symm, fun hnone => (hnone h).symm⟩
  · have hempty : ¬ arg.isEmpty = true := by simpa using h
    rw [if_neg hempty, if_neg hempty]
    exact iff_of_true rfl fun heq => absurd heq h

theorem con_eq_iff {md : Metadata V} :
    Metadata.new.con name display_name about picture = md.con name display_name about picture ↔
      md.Cubierto name display_name about picture := by
  simp only [Metadata.con, Metadata.new, Metadata.mk.injEq, campo_iff]
  constructor
  · intro h
    rcases h with ⟨h₁, h₂, h₃, h₄, h₅, h₆, h₇, h₈, h₉, h₁₀⟩
    exact ⟨h₁, h₂, h₃, h₅, h₄.symm, h₆.symm, h₇.symm, h₈.symm, h₉.symm, h₁₀.symm⟩
  · intro h
    exact ⟨h.name, h.display_name, h.about, h.website.symm, h.picture, h.banner.symm,
      h.nip05.symm, h.lud06.symm, h.lud16.symm, h.custom.symm⟩

theorem con_eq_new_iff : (Metadata.new (V := V)).con name display_name about picture = .new ↔
    name = "" ∧ display_name = "" ∧ about = "" ∧ picture = "" := by
  have hfield : ∀ arg : String, (if arg.isEmpty then none else some arg) = none ↔ arg = "" := by
    intro arg
    simp
  simp only [Metadata.con, Metadata.new, Metadata.mk.injEq, hfield, true_and, and_true]

variable [DecidableEq V]

theorem perfilNuevo_eq : perfilNuevo (V := V) url_parse name display_name about picture =
    (do
      let md ←
        if picture.isEmpty then pure (Metadata.new.con name display_name about picture)
        else
          match url_parse picture with
          | .error e => .error s!"URL de foto inválida: {e}"
          | .ok () => .ok (Metadata.new.con name display_name about picture)
      if md = .new then .error "todo vacío: no hay nada que publicar" else pure md) := by
  unfold perfilNuevo Metadata.con
  cases name.isEmpty <;> cases display_name.isEmpty <;> cases about.isEmpty <;>
    cases picture.isEmpty <;> rfl

theorem perfilNuevo_eq_ok_iff {md : Metadata V} :
    perfilNuevo url_parse name display_name about picture = .ok md ↔
      Publica url_parse name display_name about picture ∧
        md = Metadata.new.con name display_name about picture := by
  rw [perfilNuevo_eq, Publica, ← con_eq_new_iff (V := V)]
  have hfin : ∀ md', (if md' = .new then .error "todo vacío: no hay nada que publicar"
      else pure md' : Except String (Metadata V)) = .ok md ↔ ¬ md' = .new ∧ md = md' := by
    intro md'
    split
    · rename_i hnew
      exact iff_of_false (fun h => by cases h) fun h => h.1 hnew
    · rename_i hnew
      exact ⟨fun h => ⟨hnew, (Except.ok.inj h).symm⟩, fun h => by rw [h.2]; rfl⟩
  by_cases hp : picture = ""
  · have hempty : picture.isEmpty = true := by simpa using hp
    rw [if_pos hempty]
    change (if _ then _ else _ : Except String (Metadata V)) = _ ↔ _
    rw [hfin]
    simp [hp]
  · have hempty : ¬ picture.isEmpty = true := by simpa using hp
    rw [if_neg hempty]
    cases hurl : url_parse picture with
    | error e =>
      refine iff_of_false (fun h => by cases h) fun h => ?_
      cases h.1.2 hp
    | ok _ =>
      change (if _ then _ else _ : Except String (Metadata V)) = _ ↔ _
      rw [hfin]
      simp

theorem setPerfil_iff (url_parse : String → Except String Unit)
    (set_metadata : Metadata V → Except String Unit) (name display_name about picture : String)
    (ultimo : Metadata V) :
    (∀ md ∈ (setPerfil url_parse set_metadata name display_name about picture).1,
      md = ultimo.con name display_name about picture) ↔
    (Publica url_parse name display_name about picture →
      ultimo.Cubierto name display_name about picture) := by
  rw [← con_eq_iff]
  constructor
  · intro h hpublica
    have hnuevo := perfilNuevo_eq_ok_iff.mpr
      ⟨hpublica, Eq.refl (Metadata.new.con name display_name about picture : Metadata V)⟩
    apply h
    rw [setPerfil, hnuevo]
    exact List.mem_singleton_self _
  · intro h md hmd
    cases hnuevo : perfilNuevo (V := V) url_parse name display_name about picture with
    | error e =>
      rw [setPerfil, hnuevo] at hmd
      cases hmd
    | ok md' =>
      rw [setPerfil, hnuevo] at hmd
      obtain ⟨hpublica, hmd'⟩ := perfilNuevo_eq_ok_iff.mp hnuevo
      rw [List.mem_singleton.mp hmd, hmd']
      exact h hpublica

end Perfil

/-- Both edits keep the rest of the event exactly when there is nothing that the new one
could not be made of. -/
theorem edits_iff (T : Etiquetas) (N : Nip19) {V : Type} [DecidableEq V] :
    (∀ me fetch_events fetch_events' send_event npub b ultima,
      (∀ target ev, pkDe N npub = .ok target →
        ev ∈ (seguir T N me fetch_events fetch_events' send_event npub b).1 →
        SoloCambia T target b ultima ev) ↔
      ∀ target evs, pkDe N npub = .ok target → fetch_events (filtroContactos me) = .ok evs →
        Reconstruible T me target b ultima evs) ∧
    ∀ url_parse set_metadata name display_name about picture (ultimo : Metadata V),
      (∀ md ∈ (setPerfil url_parse set_metadata name display_name about picture).1,
        md = ultimo.con name display_name about picture) ↔
      (Publica url_parse name display_name about picture →
        ultimo.Cubierto name display_name about picture) := by
  constructor
  · intro me fetch_events fetch_events' send_event npub b ultima
    exact seguir_iff T N me fetch_events fetch_events' send_event npub b ultima
  · intro url_parse set_metadata name display_name about picture ultimo
    exact setPerfil_iff url_parse set_metadata name display_name about picture ultimo

/-- Keys in hexadecimal, and no tag of the author's own. -/
def etiquetasHex : Etiquetas where
  public_key
    | "p" :: hex :: _ => (fromHex hex).toOption
    | _ => none
  conserva me
    | "p" :: hex :: _ => decide ((fromHex hex).toOption ≠ some me)
    | _ => true
  public_key_tag pk := by
    rw [Tag.public_key]
    exact congrArg Except.toOption (fromHex_to_hex pk)
  conserva_of_ne me t h := by
    split at h
    · exact decide_eq_true h
    · rfl

/-- A list that was not found, with a contact in it; a profile with a text about its user. -/
theorem edits_lose :
    (¬ ∀ T N me fetch_events fetch_events' send_event npub b ultima target ev,
      pkDe N npub = .ok target →
      ev ∈ (seguir T N me fetch_events fetch_events' send_event npub b).1 →
      SoloCambia T target b ultima ev) ∧
    ¬ ∀ url_parse set_metadata name display_name about picture (ultimo : Metadata String),
      ∀ md ∈ (setPerfil url_parse set_metadata name display_name about picture).1,
        md = ultimo.con name display_name about picture := by
  constructor
  · intro h
    have hlista := (seguir_iff etiquetasHex nip19Cero claveUno (fun _ => .ok []) (fun _ => .ok [])
      (fun _ => .ok ()) npubCero true ⟨"", [Tag.public_key claveDos]⟩).mp
      fun target ev => h _ _ _ _ _ _ _ _ _ target ev
    have hmismos := (hlista claveCero [] rfl rfl).mismos
    have hkeys : publicKeys etiquetasHex [Tag.public_key claveDos] = [claveDos] :=
      Projection.filterMap_map_put etiquetasHex.public_key_tag [claveDos]
    rw [hkeys] at hmismos
    exact absurd (congrArg List.length hmismos) (by decide)
  · intro h
    have hperfil := (setPerfil_iff (fun _ => .ok ()) (fun _ => .ok ()) "ana" "" "" ""
      { Metadata.new with about := some "hola" }).mp (h _ _ _ _ _ _ _)
    have habout := (hperfil ⟨by decide, fun _ => rfl⟩).about rfl
    cases habout

end Nerea.Nostr
