import Nerea.ToolSec.CryptoVault
import Mathlib.Data.List.TakeWhile
import Mathlib.Logic.Function.Basic

/-!
# The legacy cipher on a file

`encodeFile` reads the whole file and writes it back; `encodeFileLarge` goes through it in
pieces, writes them to a second file and copies that one over the first. They leave the same
bytes behind, and each undoes the other.
-/

set_option autoImplicit false

namespace Nerea.ToolSec

/-- The files by their paths. -/
abbrev Disco := String → Option (List UInt8)

/-- How the reads cut a file before the one that gives nothing. -/
structure Lecturas where
  trozos : List UInt8 → List (List UInt8)
  flatten_trozos : ∀ data, (trozos data).flatten = data
  ne_nil : ∀ data, ∀ chunk ∈ trozos data, chunk ≠ []

/-- Reads of at most `chunkSize` bytes. -/
def enTrozos (chunkSize : ℕ) : List UInt8 → List (List UInt8)
  | [] => []
  | b :: data => (b :: data).take (chunkSize + 1) :: enTrozos chunkSize (data.drop chunkSize)
termination_by data => data.length
decreasing_by
  rw [List.length_drop, List.length_cons]
  omega

def Lecturas.deHasta (chunkSize : ℕ) : Lecturas where
  trozos := enTrozos chunkSize
  flatten_trozos := by
    intro data
    fun_induction enTrozos chunkSize data with
    | case1 => rfl
    | case2 b data ih =>
      rw [List.flatten_cons, ih, List.take_succ_cons, List.cons_append, List.take_append_drop]
  ne_nil := by
    intro data
    fun_induction enTrozos chunkSize data with
    | case1 => exact fun chunk h => absurd h List.not_mem_nil
    | case2 b data ih =>
      intro chunk h
      rcases List.mem_cons.mp h with rfl | h
      · exact List.cons_ne_nil b _
      · exact ih chunk h

def temporal (path : String) : String := path ++ "._tmp_toolsec"

def encodeFile (key : Cadena) (path : String) (disco : Disco) : Except String Disco :=
  match disco path with
  | none => .error "Archivo no encontrado"
  | some data => .ok (Function.update disco path (some (processBytes key data)))

/-- The `while` of `encodeFileLarge` with its writes, which the file at `temp` takes at its end. -/
def copia (gen : Entero → UInt8 × Entero) (temp : String) (state : Entero) (disco : Disco) :
    List (List UInt8) → Disco
  | [] => disco
  | chunk :: chunks =>
    if chunk = [] then disco
    else
      let (out, next) := xorBytes gen state chunk
      copia gen temp next (Function.update disco temp ((disco temp).map (· ++ out))) chunks

/-- `encodeFileLarge` on the file of a path. -/
def encodeFileLargeEn (key : Cadena) (path : String) (lecturas : Lecturas) (disco : Disco) :
    Except String Disco :=
  match disco path with
  | none => .error "Archivo no encontrado"
  | some data =>
    let temp := temporal path
    let disco := Function.update disco temp (some [])
    let disco := copia nextRand temp (djb2 key) disco (lecturas.trozos data)
    let disco := Function.update disco path (disco temp)
    .ok (Function.update disco temp none)

/-- Either way to encode a file. -/
inductive Modo where
  | memoria
  | flujo (lecturas : Lecturas)

def aplica (key : Cadena) (path : String) (disco : Disco) : Modo → Except String Disco
  | .memoria => encodeFile key path disco
  | .flujo lecturas => encodeFileLargeEn key path lecturas disco

theorem temporal_ne (path : String) : temporal path ≠ path := by
  intro h
  have hlength := congrArg String.length h
  have htail : "._tmp_toolsec".length = 13 := rfl
  rw [temporal, String.length_append] at hlength
  omega

theorem leido_trozos (lecturas : Lecturas) (data : List UInt8) :
    leido (lecturas.trozos data) = data := by
  have hall : (lecturas.trozos data).takeWhile (fun chunk => !chunk.isEmpty) =
      lecturas.trozos data := by
    apply List.takeWhile_eq_self_iff.mpr
    intro chunk hchunk
    rw [Bool.not_eq_true', List.isEmpty_eq_false_iff]
    exact lecturas.ne_nil data chunk hchunk
  rw [leido, hall, lecturas.flatten_trozos]

/-- The loop adds to the second file what it computes, and touches no other. -/
theorem copia_eq (gen : Entero → UInt8 × Entero) (temp : String) (state : Entero) {disco : Disco}
    {escrito : List UInt8} (h : disco temp = some escrito) (chunks : List (List UInt8)) :
    copia gen temp state disco chunks =
      Function.update disco temp (some (escrito ++ xorChunks gen state chunks)) := by
  induction chunks generalizing state disco escrito with
  | nil =>
    rw [xorChunks, List.append_nil, ← h, Function.update_eq_self]
    rfl
  | cons chunk chunks ih =>
    unfold copia xorChunks
    by_cases hchunk : chunk = []
    · rw [if_pos hchunk, if_pos hchunk, List.append_nil, ← h, Function.update_eq_self]
    · rw [if_neg hchunk, if_neg hchunk]
      dsimp only
      have hwritten : Function.update disco temp
          ((disco temp).map (· ++ (xorBytes gen state chunk).1)) temp =
            some (escrito ++ (xorBytes gen state chunk).1) := by
        rw [Function.update_self, h]
        rfl
      rw [ih _ hwritten, Function.update_idem, List.append_assoc]

/-- What is left on the disk. -/
theorem encodeFileLargeEn_eq (key : Cadena) {path : String} (lecturas : Lecturas) {disco : Disco}
    {data : List UInt8} (h : disco path = some data) :
    encodeFileLargeEn key path lecturas disco = .ok (Function.update
      (Function.update disco path (some (processBytes key data))) (temporal path) none) := by
  have hne := temporal_ne path
  have hempty : Function.update disco (temporal path) (some []) (temporal path) = some [] :=
    Function.update_self _ _ _
  unfold encodeFileLargeEn
  rw [h]
  dsimp only
  rw [copia_eq nextRand (temporal path) (djb2 key) hempty, Function.update_idem,
    Function.update_self, List.nil_append, xorChunks_eq, leido_trozos,
    Function.update_comm hne.symm, Function.update_idem, Function.update_comm hne]
  rfl

theorem aplica_eq (key : Cadena) {path : String} {disco : Disco} {data : List UInt8}
    (h : disco path = some data) (m : Modo) : ∃ disco', aplica key path disco m = .ok disco' ∧
      disco' path = some (processBytes key data) ∧
      ∀ other, other ≠ path → other ≠ temporal path → disco' other = disco other := by
  cases m with
  | memoria =>
    refine ⟨_, ?_, Function.update_self _ _ _, fun other hother _ =>
      Function.update_of_ne hother _ _⟩
    unfold aplica encodeFile
    rw [h]
  | flujo lecturas =>
    refine ⟨_, encodeFileLargeEn_eq key lecturas h, ?_, ?_⟩
    · rw [Function.update_of_ne (temporal_ne path).symm, Function.update_self]
    · intro other hother htemp
      rw [Function.update_of_ne htemp, Function.update_of_ne hother]

/-- Both ways leave in the file what `processBytes` gives, and either after either gives back
what was there. -/
theorem streaming_in_memory (key : Cadena) (path : String) (disco : Disco) (content : List UInt8)
    (h : disco path = some content) (m m' : Modo) :
    ∃ disco', aplica key path disco m = .ok disco' ∧
      disco' path = some (processBytes key content) ∧
      (∀ other, other ≠ path → other ≠ temporal path → disco' other = disco other) ∧
      ∃ disco'', aplica key path disco' m' = .ok disco'' ∧ disco'' path = some content := by
  obtain ⟨disco', hm, hdata, hotros⟩ := aplica_eq key h m
  obtain ⟨disco'', hm', hdata', -⟩ := aplica_eq key hdata m'
  rw [processBytes_processBytes] at hdata'
  exact ⟨disco', hm, hdata, hotros, disco'', hm', hdata'⟩

/-- Three bytes in pieces of two and one, and back in memory. -/
theorem streaming_abc : ∃ disco', aplica clave1234 "f" (fun _ => some [97, 98, 99])
      (.flujo (.deHasta 1)) = .ok disco' ∧
    disco' "f" = some (processBytes clave1234 [97, 98, 99]) ∧
    (∀ other, other ≠ "f" → other ≠ temporal "f" → disco' other = some [97, 98, 99]) ∧
    ∃ disco'', aplica clave1234 "f" disco' .memoria = .ok disco'' ∧
      disco'' "f" = some [97, 98, 99] :=
  streaming_in_memory clave1234 "f" (fun _ => some [97, 98, 99]) [97, 98, 99] rfl
    (.flujo (.deHasta 1)) .memoria

end Nerea.ToolSec
