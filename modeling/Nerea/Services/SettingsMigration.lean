import Nerea.Colab.Frames
import Nerea.Services.Stores

/-!
# Loading the settings, and moving them to the envelope

A file that does not look like an envelope is taken for the legacy form, and what it held is
to be saved again at once. The text of an object begins with a brace, which the legacy cipher
takes to a byte that no envelope begins with. But what the load makes of a list is a list of
`dynamic`, which no field takes: the load ends at `tasks`, the other lists are not read, and
the save is never reached.
-/

set_option autoImplicit false

namespace Nerea.Services

open Colab (utf8Decode utf8Decode_encode)
open Json (field)
open ToolSec (Aead Azar processBytes CryptoVault.isEnvelope CryptoVault.decrypt)

/-- The settings in memory, whether they were loaded, and the file, if there is one. -/
structure ConfigPr where
  settings : Settings
  loaded : Bool
  archivo : Option (List UInt8)

namespace Settings

/-- `j as bool?`, which throws on anything else. -/
def asBoolOrNull : Json → Option (Option Bool)
  | .null => some none
  | .bool b => some (some b)
  | _ => none

/-- The calls on a `dynamic` give a `List<dynamic>`, whatever the items are, and the assignment
to a `List<Map<String, dynamic>>` throws; what is not a list leaves the field as it is. -/
def mapsOr (actual : List (List (String × Json))) : Json → Option (List (List (String × Json)))
  | .arr _ => none
  | _ => some actual

def mapOr (actual : List (String × Json)) : Json → List (String × Json)
  | .obj fields => fields
  | _ => actual

/-- Field after field, up to the first that throws. -/
def readFields (map : List (String × Json)) (s : Settings) : Except Settings Settings :=
  match asBoolOrNull (field map "mediaShowUri") with
  | none => .error s
  | some b =>
    let s := { s with mediaShowUri := b.getD false }
    match asBoolOrNull (field map "natEnabled") with
    | none => .error s
    | some b =>
      let s := { s with natEnabled := b.getD false }
      match asBoolOrNull (field map "webDarkMode") with
      | none => .error s
      | some b =>
        let s := { s with webDarkMode := b.getD true }
        let s := { s with accounts := mapOr s.accounts (field map "accounts") }
        match mapsOr s.tasks (field map "tasks") with
        | none => .error s
        | some tasks =>
          let s := { s with tasks := tasks }
          match mapsOr s.pockets (field map "pockets") with
          | none => .error s
          | some pockets =>
            let s := { s with pockets := pockets }
            match mapsOr s.pkarrKeys (field map "pkarrKeys") with
            | none => .error s
            | some pkarrKeys =>
              let s := { s with pkarrKeys := pkarrKeys }
              match mapsOr s.nostrKeys (field map "nostrKeys") with
              | none => .error s
              | some nostrKeys => .ok { s with nostrKeys := nostrKeys }

variable (A : Aead) (d : Dart)

/-- The plain text of the file, and whether it has to be migrated. -/
def openFile (enc : List UInt8) : Option (List UInt8) × Bool :=
  if CryptoVault.isEnvelope enc then (CryptoVault.decrypt A enc masterKey, false)
  else (some (processBytes masterKey enc), true)

/-- A save that nothing disturbs. -/
def saveNow (azar : Azar) (c : ConfigPr) : ConfigPr :=
  { c with archivo := some (Settings.save.sobre A d azar c.settings) }

/-- A load that nothing disturbs; what throws is caught, and the settings count as loaded. -/
def load (azar : Azar) (c : ConfigPr) : ConfigPr :=
  if c.loaded then c
  else
    match c.archivo with
    | none => { c with loaded := true }
    | some enc =>
      let (plain, needsMigration) := openFile A enc
      match plain with
      | none => { c with loaded := true }
      | some plain =>
        match (utf8Decode plain).bind d.jsonDecode with
        | some (.obj map) =>
          match readFields map c.settings with
          | .error s => { c with settings := s, loaded := true }
          | .ok s =>
            let c := { c with settings := s }
            let c := if needsMigration then saveNow A d azar c else c
            { c with loaded := true }
        | _ => { c with loaded := true }

/-- The JSON library is correct on a value: it reads what it wrote, an object in braces. -/
structure Escribible (v : Settings) : Prop where
  jsonDecode : d.jsonDecode (d.jsonEncode (Settings.save.toJson v)) = some (Settings.save.toJson v)
  brace : (d.jsonEncode (Settings.save.toJson v)).toList.head? = some '\x7b'

variable {A d} {v : Settings}

/-- The settings with the fields that are read before the lists. -/
def hastaListas (s v : Settings) : Settings :=
  { s with
    mediaShowUri := v.mediaShowUri
    natEnabled := v.natEnabled
    webDarkMode := v.webDarkMode
    accounts := v.accounts }

/-- The text of a value has a list at `tasks`, and there the reading ends. -/
theorem readFields_toJson (v s : Settings) : ∃ map, Settings.save.toJson v = .obj map ∧
    readFields map s = .error (hastaListas s v) := by
  refine ⟨_, rfl, ?_⟩
  simp [readFields, field, List.lookup_cons, asBoolOrNull, mapOr, mapsOr, hastaListas]

/-- The text begins with the byte of the brace. -/
theorem exists_plain (h : Escribible d v) :
    ∃ rest, Settings.save.plain d v = 0x7b :: rest := by
  obtain ⟨cs, hcs⟩ := List.head?_eq_some_iff.mp h.brace
  refine ⟨cs.flatMap String.utf8EncodeChar, ?_⟩
  rw [Guardado.plain, hcs, List.flatMap_cons]
  rfl

/-- The legacy cipher takes the brace to 0x37. -/
theorem isEnvelope_legacy (h : Escribible d v) :
    CryptoVault.isEnvelope (processBytes masterKey (Settings.save.plain d v)) = false := by
  obtain ⟨rest, hplain⟩ := exists_plain h
  have hfirst : ∃ rest', processBytes masterKey (0x7b :: rest) = 0x37 :: rest' := ⟨_, rfl⟩
  obtain ⟨rest', hrest'⟩ := hfirst
  rw [hplain, hrest', CryptoVault.isEnvelope]
  split
  · rfl
  · rfl

theorem decode_plain (h : Escribible d v) :
    (utf8Decode (Settings.save.plain d v)).bind d.jsonDecode = some (Settings.save.toJson v) := by
  have hbom : [0xEF, 0xBB, 0xBF].isPrefixOf (Settings.save.plain d v) = false := by
    obtain ⟨rest, hplain⟩ := exists_plain h
    rw [hplain]
    rfl
  rw [Guardado.plain, utf8Decode_encode _ hbom]
  exact h.jsonDecode

/-- What a load does with a file that opens to the text of a value, of either form. -/
theorem load_of_openFile (h : Escribible d v) {azar : Azar} {c : ConfigPr} {enc : List UInt8}
    {needsMigration : Bool} (hloaded : c.loaded = false) (harchivo : c.archivo = some enc)
    (hopen : openFile A enc = (some (Settings.save.plain d v), needsMigration)) :
    load A d azar c = ⟨hastaListas c.settings v, true, some enc⟩ := by
  obtain ⟨map, hmap, hread⟩ := readFields_toJson v c.settings
  have hdecode := decode_plain h
  rw [hmap] at hdecode
  unfold load
  rw [hloaded, if_neg Bool.false_ne_true]
  simp only [harchivo, hopen, hdecode, hread]

theorem openFile_legacy (h : Escribible d v) :
    openFile A (processBytes masterKey (Settings.save.plain d v)) =
      (some (Settings.save.plain d v), true) := by
  rw [openFile, isEnvelope_legacy h, if_neg Bool.false_ne_true, ToolSec.processBytes_processBytes]

theorem openFile_sobre (A : Aead) (d : Dart) (azar : Azar) (v : Settings) :
    openFile A (Settings.save.sobre A d azar v) = (some (Settings.save.plain d v), false) := by
  have hopen : CryptoVault.decrypt A (Settings.save.sobre A d azar v) masterKey =
      some (Settings.save.plain d v) := ToolSec.CryptoVault.decrypt_encrypt
  rw [openFile, Guardado.sobre, ToolSec.CryptoVault.isEnvelope_encrypt, if_pos rfl]
  exact Prod.ext hopen rfl

/-- The file with the legacy form of a value, not loaded yet. -/
def legado (d : Dart) (v s : Settings) : ConfigPr :=
  ⟨s, false, some (processBytes masterKey (Settings.save.plain d v))⟩

/-- The legacy form of a value is not taken for an envelope, and a load of it gives the value
and leaves an envelope from which any later load gives it again. -/
def Migra (A : Aead) (d : Dart) (azar : Azar) (v s : Settings) : Prop :=
  CryptoVault.isEnvelope (processBytes masterKey (Settings.save.plain d v)) = false ∧
  ∃ enc, load A d azar (legado d v s) = ⟨v, true, some enc⟩ ∧
    CryptoVault.isEnvelope enc = true ∧ enc[4]? = some ToolSec.CryptoVault.version ∧
    ∀ azar' s', load A d azar' ⟨s', false, some enc⟩ = ⟨v, true, some enc⟩

/-- A load that leaves the legacy form in the file has not moved the value. -/
theorem not_migra_of_archivo {azar : Azar} {s : Settings}
    (h : (load A d azar (legado d v s)).archivo = (legado d v s).archivo) :
    ¬ Migra A d azar v s := by
  rintro ⟨hno, enc, hload, henvelope, -⟩
  rw [hload] at h
  have henc : enc = processBytes masterKey (Settings.save.plain d v) := Option.some.inj h
  rw [henc, hno] at henvelope
  cases henvelope

theorem load_legado (h : Escribible d v) (azar : Azar) (s : Settings) :
    load A d azar (legado d v s) =
      ⟨hastaListas s v, true, some (processBytes masterKey (Settings.save.plain d v))⟩ :=
  load_of_openFile h rfl rfl (openFile_legacy h)

/-- The legacy form of a value is not taken for an envelope, but a load of it, as of an
envelope, reads the fields before the lists and leaves the file as it was: no value is ever
moved to the envelope. -/
theorem settings_migration (A : Aead) (d : Dart) (v : Settings) (h : Escribible d v)
    (azar : Azar) (s : Settings) :
    CryptoVault.isEnvelope (processBytes masterKey (Settings.save.plain d v)) = false ∧
    load A d azar (legado d v s) =
      ⟨hastaListas s v, true, some (processBytes masterKey (Settings.save.plain d v))⟩ ∧
    (∀ azar', load A d azar ⟨s, false, some (Settings.save.sobre A d azar' v)⟩ =
      ⟨hastaListas s v, true, some (Settings.save.sobre A d azar' v)⟩) ∧
    ¬ Migra A d azar v s := by
  refine ⟨isEnvelope_legacy h, load_legado h azar s, fun azar' => ?_, ?_⟩
  · exact load_of_openFile h rfl rfl (openFile_sobre A d azar' v)
  · apply not_migra_of_archivo
    rw [load_legado h azar s]
    rfl

def textoInicial : String :=
  "\x7b" ++ "\"mediaShowUri\":false,\"natEnabled\":false,\"webDarkMode\":true," ++
    "\"accounts\":\x7b\x7d,\"tasks\":[],\"pockets\":[],\"pkarrKeys\":[],\"nostrKeys\":[]\x7d"

/-- A library that knows one text. -/
def dartInicial : Dart where
  jsonDecode := fun s => if s = textoInicial then some (Settings.save.toJson {}) else none
  jsonEncode := fun _ => textoInicial
  toText := fun j =>
    match j with
    | .str s => s
    | _ => textoInicial
  hashCode := fun _ => 0
  toText_str := fun _ => rfl

theorem dartInicial_escribible : Escribible dartInicial {} where
  jsonDecode := by
    change (if textoInicial = textoInicial then some (Settings.save.toJson {}) else none) = _
    rw [if_pos rfl]
  brace := by
    change textoInicial.toList.head? = some '\x7b'
    rw [textoInicial, String.toList_append, String.toList_append]
    rfl

/-- The defaults, loaded over settings that differ: the file keeps the legacy form. -/
theorem defaults_stay :
    (load ToolSec.sinCifra dartInicial ⟨List.replicate 16 0, List.replicate 12 0, rfl, rfl⟩
        (legado dartInicial {} { webDarkMode := false })).archivo =
      some (processBytes masterKey (Settings.save.plain dartInicial {})) := by
  obtain ⟨-, hload, -⟩ := settings_migration ToolSec.sinCifra dartInicial {}
    dartInicial_escribible ⟨List.replicate 16 0, List.replicate 12 0, rfl, rfl⟩
    { webDarkMode := false }
  rw [hload]

/-- The defaults, loaded over the defaults. -/
theorem defaults_not_migrated :
    ¬ ∀ A d v, Escribible d v → ∀ azar s, Migra A d azar v s := by
  intro h
  refine not_migra_of_archivo ?_ (h ToolSec.sinCifra dartInicial {} dartInicial_escribible
    ⟨List.replicate 16 0, List.replicate 12 0, rfl, rfl⟩ {})
  rw [load_legado dartInicial_escribible]
  rfl

end Settings
end Nerea.Services
