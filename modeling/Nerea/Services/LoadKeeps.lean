import Nerea.Services.Loading

/-!
# What a load keeps

A load brings what it has read into a collection that may have changed meanwhile, and the
saves that were started write what the collection held before. Nothing is lost when what was
read and what is left there have everything, the last save looks at the collection after
the load, and the saves take turns.
-/

set_option autoImplicit false

namespace Nerea.Services

open ToolSec (Aead Azar)

namespace Estado

variable {M : Type} {A : Aead} {d : Dart} {g : Guardado M} {s s' : Estado M}

theorem paso_guarda_ruta (s : Estado M) (h : g.rutaPrimero = true) :
    s.paso A d g .guarda = { s with enRuta := s.enRuta + 1, alDia := true } :=
  if_pos h

theorem paso_guarda_foto (s : Estado M) (h : g.rutaPrimero = false) :
    s.paso A d g .guarda = { s with alDia := true }.toma d g :=
  if_neg (by rw [h]; decide)

/-- What a step of a save does to the rest. -/
structure Sigue (s s' : Estado M) : Prop where
  memoria : s'.memoria = s.memoria
  fallidas : s'.fallidas = 0 → s.fallidas = 0
  fotos : s'.fotos = s.fotos ++ [s.memoria] ∨
    s'.fotos = s.fotos ∧ (s'.fallidas = 0 → s'.enRuta = s.enRuta)
  abiertas : s'.abiertas = [] → s.abiertas = [] ∧ s'.disco = s.disco

theorem Sigue.refl (s : Estado M) : Sigue s s :=
  ⟨rfl, id, Or.inr ⟨rfl, fun _ => rfl⟩, fun h => ⟨h, rfl⟩⟩

theorem Sigue.pasa (s : Estado M) (n : ℕ) (pc : Pc) : Sigue s (s.pasa n pc) :=
  ⟨rfl, id, Or.inr ⟨rfl, fun _ => rfl⟩, fun h => ⟨h, rfl⟩⟩

/-- A save that throws has not taken its snapshot, or has taken it before. -/
theorem Sigue.falla (enRuta : ℕ) (saves : ℕ → Pc) :
    Sigue s { s with enRuta := enRuta, saves := saves, fallidas := s.fallidas + 1 } where
  memoria := rfl
  fallidas := fun h => absurd h (Nat.succ_ne_zero _)
  fotos := Or.inr ⟨rfl, fun h => absurd h (Nat.succ_ne_zero _)⟩
  abiertas := fun h => ⟨h, rfl⟩

theorem Sigue.paso (h : s.Registrado A d g) {e : Evento M} (he : e.continua = true) :
    Sigue s (s.paso A d g e) := by
  cases e with
  | cambia f => cases he
  | guarda => cases he
  | entra =>
    rw [Estado.paso]
    split
    · exact Sigue.refl s
    · exact ⟨rfl, id, Or.inl rfl, fun h => ⟨h, rfl⟩⟩
  | cifrado n azar =>
    rw [Estado.paso]
    split
    · dsimp only
      split
      · exact Sigue.pasa s n _
      · exact Sigue.pasa s n _
    · exact Sigue.refl s
  | ruta n =>
    rw [Estado.paso]
    split
    · exact Sigue.pasa s n _
    · exact Sigue.refl s
  | abierto n =>
    rw [Estado.paso]
    split
    · exact ⟨rfl, id, Or.inr ⟨rfl, fun _ => rfl⟩, fun h => absurd h (List.cons_ne_nil _ _)⟩
    · exact Sigue.refl s
  | escrito n k =>
    rw [Estado.paso]
    split
    · rename_i enc off hn
      refine ⟨rfl, id, Or.inr ⟨rfl, fun _ => rfl⟩, ?_⟩
      -- who writes has opened the file
      intro hnadie
      have hlleva := (h.saves n).lleva
      rw [hn] at hlleva
      have hmem : n ∈ s.abiertas := hlleva.2.1
      have hnil : s.abiertas = [] := hnadie
      rw [hnil] at hmem
      cases hmem
    · exact Sigue.refl s
  | cerrado n =>
    rw [Estado.paso]
    split
    · split
      · exact Sigue.pasa s n _
      · exact Sigue.refl s
    · exact Sigue.refl s
  | fallaRuta =>
    rw [Estado.paso]
    split
    · exact Sigue.refl s
    · exact Sigue.falla _ _
  | falla n =>
    rw [Estado.paso]
    split
    · exact Sigue.refl s
    · exact Sigue.falla _ _

end Estado

namespace Carga

variable {M : Type} (A : Aead) (d : Dart) (g : Guardado M) (c : Recarga M)

/-- Once the load and all saves are over, nothing that the file had and nothing that was
added since is missing, neither in memory nor in the file. -/
def Conservado (s : Carga M) : Prop :=
  s.fase = .fin → s.estado.Completas → ∀ x, c.Tiene s.debido x →
    c.Tiene s.estado.memoria x ∧
      ∃ m azar, s.estado.disco = g.sobre A d azar m ∧ c.Tiene m x

/-- When the load ends, what was read, or else what is left in memory, has everything; and
the saves take turns. -/
def EnTurno (s : Carga M) : Suceso M c.Alta → Prop
  | .descifrado => ∀ enc, s.fase = .descifra enc →
    match c.lee A d enc with
    | some l => c.Queda l s.estado.memoria s.debido
    | none => c.Cubre s.debido s.estado.memoria
  | .falla => s.fase ≠ .fin → c.Cubre s.debido s.estado.memoria
  | .save e => s.estado.EnTurno e
  | _ => True

/-- Once the load and all saves are over, the last snapshot was taken after the load, or it
had everything as well. -/
def EnCalma (s : Carga M) : Prop :=
  s.fase = .fin → s.estado.Completas → ∀ n m, n + 1 = s.estado.fotos.length →
    s.estado.fotos[n]? = some m → s.alFin ≤ n ∨ c.Cubre s.debido m

/-- The file is as a save has left it, and a load by itself brings all that it has. -/
def Intacto (viejo : M) (azar : Azar) : Prop :=
  ∃ l, c.lee A d (g.sobre A d azar viejo) = some l ∧ ∀ m, c.Queda l m viejo

/-- After the load what memory holds covers what is owed, and so do the snapshots taken
since that are not waiting for another; before any snapshot the file is the old one. -/
structure Cuidada (viejo : M) (azar : Azar) (s : Carga M) : Prop where
  registrado : s.estado.Registrado A d g
  disco : s.estado.abiertas = [] → s.estado.disco = g.sobre A d azar viejo
  viejo : s.estado.fotos = [] → s.estado.enRuta = 0 → s.estado.fallidas = 0 → s.debido = viejo
  memoria : s.fase = .fin → c.Cubre s.debido s.estado.memoria
  fotos : s.fase = .fin → s.estado.enRuta = 0 → s.estado.fallidas = 0 → ∀ n m,
    n + 1 = s.estado.fotos.length → s.alFin ≤ n → s.estado.fotos[n]? = some m →
    c.Cubre s.debido m

variable {A d g c} {viejo : M} {azar : Azar} {s : Carga M}

theorem eq_of_ultima {fotos : List M} {m m' : M} {n : ℕ} (hn : n + 1 = (fotos ++ [m]).length)
    (hm : (fotos ++ [m])[n]? = some m') : m = m' := by
  rw [List.length_append, List.length_singleton] at hn
  have hlast : n = fotos.length := by omega
  rw [hlast, List.getElem?_concat_length] at hm
  exact Option.some.inj hm

theorem Cuidada.inicial (m : M) : Cuidada A d g c viejo azar (inicial A d g c m viejo azar) where
  registrado := Estado.Registrado.inicio m _
  disco := fun _ => rfl
  viejo := fun _ _ _ => rfl
  memoria := nofun
  fotos := nofun

/-- The load moves and does not end. -/
theorem Cuidada.avanza (hs : Cuidada A d g c viejo azar s) {fase : Fase} (hfase : fase ≠ .fin) :
    Cuidada A d g c viejo azar { s with fase := fase } where
  registrado := hs.registrado
  disco := hs.disco
  viejo := hs.viejo
  memoria := fun h => absurd h hfase
  fotos := fun h => absurd h hfase

/-- The load ends: no snapshot has been taken since. -/
theorem Cuidada.termina (hs : Cuidada A d g c viejo azar s) {f : M → M}
    (hf : c.Cubre s.debido (f s.estado.memoria)) :
    Cuidada A d g c viejo azar { s with estado := s.estado.paso A d g (.cambia f) }.termina where
  registrado := hs.registrado.paso (.cambia f) trivial
  disco := hs.disco
  viejo := hs.viejo
  memoria := fun _ => hf
  fotos := fun _ _ _ n _ hn hle _ => absurd (hn ▸ hle : n + 1 ≤ n) (Nat.not_succ_le_self n)

theorem Cuidada.falla (hs : Cuidada A d g c viejo azar s)
    (hm : c.Cubre s.debido s.estado.memoria) : Cuidada A d g c viejo azar s.termina where
  registrado := hs.registrado
  disco := hs.disco
  viejo := hs.viejo
  memoria := fun _ => hm
  fotos := fun _ _ _ n _ hn hle _ => absurd (hn ▸ hle : n + 1 ≤ n) (Nat.not_succ_le_self n)

theorem Cuidada.alta (hs : Cuidada A d g c viejo azar s) {a : c.Alta} {f : M → M}
    (hf : c.alta a = some f) : Cuidada A d g c viejo azar { s with
      estado := (s.estado.paso A d g (.cambia f)).paso A d g .guarda
      debido := f s.debido } := by
  have hregistrado : ((s.estado.paso A d g (.cambia f)).paso A d g .guarda).Registrado A d g :=
    (hs.registrado.paso (.cambia f) trivial).paso .guarda trivial
  have hcubre : s.fase = .fin → c.Cubre (f s.debido) (f s.estado.memoria) :=
    fun h => c.cubre_alta (hs.memoria h) a f hf
  cases hruta : g.rutaPrimero with
  | true =>
    -- the snapshot is still to be taken
    rw [Estado.paso_guarda_ruta _ hruta] at hregistrado ⊢
    refine ⟨hregistrado, hs.disco, ?_, hcubre, ?_⟩
    · intro _ h
      cases h
    · intro _ h
      cases h
  | false =>
    rw [Estado.paso_guarda_foto _ hruta] at hregistrado ⊢
    have hfotos : ({ s.estado.paso A d g (.cambia f) with alDia := true }.toma d g).fotos =
        s.estado.fotos ++ [f s.estado.memoria] := rfl
    refine ⟨hregistrado, hs.disco, ?_, hcubre, ?_⟩
    · intro h
      exact absurd (hfotos.symm.trans h) (List.append_ne_nil_of_right_ne_nil _ nofun)
    · intro hfase _ _ n m hn _ hm
      dsimp only at hn hm
      rw [hfotos] at hn hm
      exact eq_of_ultima hn hm ▸ hcubre hfase

theorem Cuidada.save (hs : Cuidada A d g c viejo azar s) {e : Evento M}
    (he : e.continua = true) (hturno : s.estado.EnTurno e) :
    Cuidada A d g c viejo azar { s with estado := s.estado.paso A d g e } := by
  have hsigue := Estado.Sigue.paso hs.registrado he
  refine ⟨hs.registrado.paso e hturno, ?_, ?_, ?_, ?_⟩
  · intro h
    obtain ⟨hnil, hdisco⟩ := hsigue.abiertas h
    exact hdisco.trans (hs.disco hnil)
  · intro hnil henRuta hfallidas
    rcases hsigue.fotos with hfotos | ⟨hfotos, hmisma⟩
    · exact absurd (hfotos.symm.trans hnil) (List.append_ne_nil_of_right_ne_nil _ nofun)
    · exact hs.viejo (hfotos.symm.trans hnil) ((hmisma hfallidas).symm.trans henRuta)
        (hsigue.fallidas hfallidas)
  · intro hfase
    have hmemoria := hs.memoria hfase
    dsimp only
    rw [hsigue.memoria]
    exact hmemoria
  · intro hfase henRuta hfallidas n m hn hle hm
    dsimp only at henRuta hfallidas hn hm
    rcases hsigue.fotos with hfotos | ⟨hfotos, hmisma⟩
    · rw [hfotos] at hn hm
      exact eq_of_ultima hn hm ▸ hs.memoria hfase
    · rw [hfotos] at hn hm
      exact hs.fotos hfase ((hmisma hfallidas).symm.trans henRuta) (hsigue.fallidas hfallidas)
        n m hn hle hm

theorem Cuidada.paso (hs : Cuidada A d g c viejo azar s) {e : Suceso M c.Alta}
    (he : EnTurno A d c s e) : Cuidada A d g c viejo azar (s.paso A d g c e) := by
  cases e with
  | load => exact hs
  | alta a =>
    unfold Carga.paso
    dsimp only
    cases hf : c.alta a with
    | none => exact hs
    | some f => exact hs.alta hf
  | avanza =>
    unfold Carga.paso
    dsimp only
    split
    · exact hs.avanza nofun
    · exact hs
  | leido =>
    unfold Carga.paso
    dsimp only
    split
    · exact hs.avanza nofun
    · exact hs
  | descifrado =>
    unfold Carga.paso
    dsimp only
    split
    · rename_i enc hfase
      have hcubre := he enc hfase
      apply hs.termina
      unfold Recarga.recarga
      cases hlee : c.lee A d enc with
      | none =>
        rw [hlee] at hcubre
        exact hcubre
      | some l =>
        rw [hlee] at hcubre
        exact c.cubre_mezcla hcubre
    · exact hs
  | falla =>
    unfold Carga.paso
    dsimp only
    split
    · exact hs
    · rename_i hfase
      exact hs.falla (he hfase)
  | save e =>
    unfold Carga.paso
    dsimp only
    split
    · rename_i hcontinua
      exact hs.save hcontinua he
    · exact hs

theorem Cuidada.conservado (hs : Cuidada A d g c viejo azar s) (hcalma : EnCalma c s) :
    Conservado A d g c s := by
  intro hfase hcompletas x hx
  refine ⟨c.tiene_of_cubre (hs.memoria hfase) x hx, ?_⟩
  cases hfotos : s.estado.fotos with
  | nil =>
    have hnadie : s.estado.abiertas = [] := by
      rw [List.eq_nil_iff_forall_not_mem]
      intro n hn
      have hlt := hs.registrado.menores n hn
      rw [hfotos] at hlt
      exact absurd hlt (Nat.not_lt_zero n)
    have hviejo := hs.viejo hfotos hcompletas.enRuta hcompletas.fallidas
    exact ⟨viejo, azar, hs.disco hnadie, hviejo ▸ hx⟩
  | cons m ms =>
    have hlength : s.estado.fotos.length = ms.length + 1 := by
      rw [hfotos, List.length_cons]
    have hne : s.estado.fotos ≠ [] := by
      rw [hfotos]
      exact List.cons_ne_nil m ms
    have hlast : s.estado.fotos[ms.length]? = some (s.estado.fotos.getLast hne) := by
      rw [← List.getLast?_eq_some_getLast, List.getLast?_eq_getElem?, hlength]
      rfl
    obtain ⟨azar', hdisco⟩ := hs.registrado.disco_ultima hcompletas hlength.symm hlast
    refine ⟨_, azar', hdisco, ?_⟩
    rcases hcalma hfase hcompletas ms.length _ hlength.symm hlast with hle | hcubre
    · exact c.tiene_of_cubre (hs.fotos hfase hcompletas.enRuta hcompletas.fallidas ms.length _
        hlength.symm hle hlast) x hx
    · exact c.tiene_of_cubre hcubre x hx

theorem run_conservado (m : M) (es : List (Suceso M c.Alta))
    (hturno : Run.AllSteps (paso A d g c) (EnTurno A d c) (inicial A d g c m viejo azar) es)
    (hcalma : Run.Always (paso A d g c) (EnCalma c) (inicial A d g c m viejo azar) es) :
    Run.Always (paso A d g c) (Conservado A d g c) (inicial A d g c m viejo azar) es := by
  have hcuidada : Run.Always (paso A d g c) (Cuidada A d g c viejo azar)
      (inicial A d g c m viejo azar) es :=
    Run.always_of_allSteps (fun _ _ hs he => hs.paso he) (Cuidada.inicial m) hturno
  exact (hcuidada.and hcalma).imp (fun _ hs => hs.1.conservado hs.2)

theorem lee_sobre (m : M) (azar : Azar)
    (hcifra : c.descifra A (g.sobre A d azar m) = some (g.plain d m))
    (hbom : [0xEF, 0xBB, 0xBF].isPrefixOf (g.plain d m) = false) :
    c.lee A d (g.sobre A d azar m) =
      (d.jsonDecode (d.jsonEncode (g.toJson m))).bind (c.fromJson d) := by
  unfold Recarga.lee
  rw [hcifra, Option.bind_eq_bind, Option.bind_some]
  unfold Guardado.plain at hbom ⊢
  rw [Colab.utf8Decode_encode _ hbom]
  rfl

end Carga

open Carga

/-- For each of the three stores and every run. -/
theorem carga_conserva (t : Cargable) (A : Aead) (d : Dart) (m viejo : t.tienda.Memoria)
    (azar : Azar) (es : List (Suceso t.tienda.Memoria t.recarga.Alta))
    (hturno : Run.AllSteps (paso A d t.tienda.guardado t.recarga) (Carga.EnTurno A d t.recarga)
      (inicial A d t.tienda.guardado t.recarga m viejo azar) es)
    (hcalma : Run.Always (paso A d t.tienda.guardado t.recarga) (EnCalma t.recarga)
      (inicial A d t.tienda.guardado t.recarga m viejo azar) es) :
    Run.Always (paso A d t.tienda.guardado t.recarga) (Conservado A d t.tienda.guardado t.recarga)
      (inicial A d t.tienda.guardado t.recarga m viejo azar) es :=
  run_conservado m es hturno hcalma

/-- A vault with one key. -/
def guardadas : Claves := ⟨[("grok", ["k1"])], []⟩

def jsonGuardadas : Json := .obj [("keys", .obj [("grok", .arr [.str "k1"])]), ("urls", .obj [])]

def textoGuardadas : String := "\x7b\"keys\":\x7b\"grok\":[\"k1\"]\x7d,\"urls\":\x7b\x7d\x7d"

/-- The encoder on the two vaults of the runs, and the decoder on the one that is read. -/
def dartClaves : Dart where
  jsonDecode := fun s => if s = textoGuardadas then some jsonGuardadas else none
  jsonEncode := fun j =>
    match j with
    | .obj [(_, .obj [_]), _] => textoGuardadas
    | _ => "\x7b\"keys\":\x7b\"grok\":[\"k1\"],\"groq\":[\"k2\"]\x7d,\"urls\":\x7b\x7d\x7d"
  toText := fun j =>
    match j with
    | .str s => s
    | _ => "\x7b...\x7d"
  hashCode := fun _ => 0
  toText_str := fun _ => rfl

theorem lee_guardadas : KeyVault.recarga.lee ToolSec.sinCifra dartClaves
    (KeyVault.save.sobre ToolSec.sinCifra dartClaves ceros guardadas) = some guardadas := by
  have hcifra : ToolSec.CryptoVault.decrypt ToolSec.sinCifra
      (KeyVault.save.sobre ToolSec.sinCifra dartClaves ceros guardadas) KeyVault.save.passphrase =
      some (KeyVault.save.plain dartClaves guardadas) := ToolSec.CryptoVault.decrypt_encrypt
  rw [lee_sobre guardadas ceros hcifra (by decide)]
  change ((if textoGuardadas = textoGuardadas then some jsonGuardadas else none).bind
    fun j => KeyVault.fromJson j) = some guardadas
  rw [if_pos rfl]
  rfl

theorem queda_guardadas (m : Claves) : KeyVault.Queda guardadas m guardadas := by
  intro e he
  cases e with
  | key p k => exact Or.inl he
  | url p u => exact Or.inl he

/-- A key of another provider is added while the load is in flight. -/
theorem carga_conserva_otro : Run.Always
    (paso ToolSec.sinCifra dartClaves KeyVault.save KeyVault.recarga)
    (Conservado ToolSec.sinCifra dartClaves KeyVault.save KeyVault.recarga)
    (inicial ToolSec.sinCifra dartClaves KeyVault.save KeyVault.recarga ⟨[], []⟩ guardadas ceros)
    [.avanza, .leido, .alta ⟨"groq", "k2"⟩, .descifrado, .save .entra, .save (.cifrado 0 ceros),
      .save (.abierto 0), .save (.escrito 0 200), .save (.cerrado 0)] := by
  apply carga_conserva .keyVault ToolSec.sinCifra dartClaves ⟨[], []⟩ guardadas ceros
  · refine ⟨trivial, trivial, trivial, ?_, trivial, trivial, ?_, ?_, trivial, trivial⟩
    · intro enc h
      cases h
      change match KeyVault.recarga.lee ToolSec.sinCifra dartClaves
        (KeyVault.save.sobre ToolSec.sinCifra dartClaves ceros guardadas) with
        | some l => KeyVault.Queda l (KeyVault.addKey ⟨"groq", "k2"⟩ ⟨[], []⟩)
            (KeyVault.addKey ⟨"groq", "k2"⟩ guardadas)
        | none => KeyVault.recarga.Cubre (KeyVault.addKey ⟨"groq", "k2"⟩ guardadas)
            (KeyVault.addKey ⟨"groq", "k2"⟩ ⟨[], []⟩)
      rw [lee_guardadas]
      intro e he
      rcases (KeyVault.tiene_addKey _ _ e).mp he with he | he
      · exact queda_guardadas _ e he
      · rw [he]
        exact Or.inr ⟨rfl, (KeyVault.tiene_addKey _ _ _).mpr (Or.inr rfl)⟩
    · intro enc _ m hm
      cases hm
    · intro enc off _ _ _
      rfl
  · refine ⟨nofun, nofun, nofun, nofun, ?_, ?_, ?_, ?_, ?_, ?_⟩
    all_goals exact fun _ _ n _ _ _ => Or.inl (Nat.zero_le n)

/-- A second key of a provider is added between the read and the refill. -/
theorem load_drops_key : ¬ ∀ (t : Cargable) (A : Aead) (d : Dart) (m viejo : t.tienda.Memoria)
    (azar : Azar), Intacto A d t.tienda.guardado t.recarga viejo azar →
    ∀ es : List (Suceso t.tienda.Memoria t.recarga.Alta),
      Run.Always (paso A d t.tienda.guardado t.recarga)
        (Conservado A d t.tienda.guardado t.recarga)
        (inicial A d t.tienda.guardado t.recarga m viejo azar) es := by
  intro h
  have hintacto : Intacto ToolSec.sinCifra dartClaves KeyVault.save KeyVault.recarga guardadas
      ceros := ⟨guardadas, lee_guardadas, queda_guardadas⟩
  have hrun : Run.Always (paso ToolSec.sinCifra dartClaves KeyVault.save KeyVault.recarga)
      (Conservado ToolSec.sinCifra dartClaves KeyVault.save KeyVault.recarga)
      (inicial ToolSec.sinCifra dartClaves KeyVault.save KeyVault.recarga ⟨[], []⟩ guardadas ceros)
      ([.avanza, .leido, .alta ⟨"grok", "k2"⟩, .descifrado] ++ [.save .entra,
        .save (.cifrado 0 ceros), .save (.abierto 0), .save (.escrito 0 200),
        .save (.cerrado 0)]) :=
    h .keyVault ToolSec.sinCifra dartClaves ⟨[], []⟩ guardadas ceros hintacto _
  have hlast := hrun.last
  rw [Run.run_append] at hlast
  have hmemoria : KeyVault.recarga.recarga ToolSec.sinCifra dartClaves
      (KeyVault.save.sobre ToolSec.sinCifra dartClaves ceros guardadas)
      (KeyVault.addKey ⟨"grok", "k2"⟩ ⟨[], []⟩) = guardadas := by
    unfold Recarga.recarga
    rw [lee_guardadas]
    rfl
  have hcargada : Run.run (paso ToolSec.sinCifra dartClaves KeyVault.save KeyVault.recarga)
      (inicial ToolSec.sinCifra dartClaves KeyVault.save KeyVault.recarga ⟨[], []⟩ guardadas ceros)
      [.avanza, .leido, .alta ⟨"grok", "k2"⟩, .descifrado] =
      { estado := {
          Estado.inicio (KeyVault.recarga.recarga ToolSec.sinCifra dartClaves
            (KeyVault.save.sobre ToolSec.sinCifra dartClaves ceros guardadas)
            (KeyVault.addKey ⟨"grok", "k2"⟩ ⟨[], []⟩))
            (KeyVault.save.sobre ToolSec.sinCifra dartClaves ceros guardadas) with
          enRuta := 1 }
        fase := .fin
        debido := KeyVault.addKey ⟨"grok", "k2"⟩ guardadas
        alFin := 0 } := rfl
  rw [hmemoria] at hcargada
  rw [hcargada] at hlast
  have hdebido : KeyVault.Tiene (KeyVault.addKey ⟨"grok", "k2"⟩ guardadas)
      (.key "grok" (Agents.KeyVault.trim "k2")) :=
    (KeyVault.tiene_addKey ⟨"grok", "k2"⟩ guardadas _).mpr (Or.inr rfl)
  have hguardada := hlast rfl ⟨rfl, fun n => match n with | 0 => rfl | _ + 1 => rfl, rfl⟩
    (KeyVault.Guardada.key "grok" (Agents.KeyVault.trim "k2"))
  obtain ⟨ks, hks, hk⟩ := (hguardada hdebido).1
  have hlista : guardadas.keys.lookup "grok" = some ks := hks
  cases hlista
  exact absurd hk (by decide)

end Nerea.Services
