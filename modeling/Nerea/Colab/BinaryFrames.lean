import Nerea.Colab.Frames

/-!
# Binary frames of a Jupyter kernel

A frame in the format of the server is a table of 32-bit numbers (how many parts there are,
and where each begins) and the parts behind it, the JSON first. The parser gives back the
message of every such frame, and whatever it accepts is the decoding of the slice between
the first two offsets.
-/

set_option autoImplicit false

namespace Nerea.Colab

open Json

/-- The four bytes of a number in big-endian order. -/
def be32Bytes (n : ℕ) : List UInt8 :=
  [UInt8.ofNat (n / 0x1000000), UInt8.ofNat (n / 0x10000), UInt8.ofNat (n / 0x100), UInt8.ofNat n]

def offsets : ℕ → List (List UInt8) → List ℕ
  | _, [] => []
  | start, part :: parts => start :: offsets (start + part.length) parts

/-- `[4B BE nbufs][nbufs x 4B BE offsets]` and the parts. -/
def encodeParts (parts : List (List UInt8)) : List UInt8 :=
  (parts.length :: offsets (4 * (parts.length + 1)) parts).flatMap be32Bytes ++ parts.flatten

def encodeBinary (json : String) (buffers : List (List UInt8)) : List UInt8 :=
  encodeParts (json.toList.flatMap String.utf8EncodeChar :: buffers)

theorem be32_be32Bytes {n : ℕ} (hn : n < 0x100000000) (rest : List UInt8) :
    be32 (be32Bytes n ++ rest) 0 = n := by
  simp only [be32, be32Bytes, List.cons_append, List.getD_cons_zero, List.getD_cons_succ,
    UInt8.toNat_ofNat']
  omega

theorem be32_append (l r : List UInt8) (off : ℕ) : be32 (l ++ r) (l.length + off) = be32 r off := by
  have hget (i : ℕ) : (l ++ r).getD (l.length + i) 0 = r.getD i 0 := by
    rw [List.getD_eq_getElem?_getD, List.getElem?_append_right (by omega),
      Nat.add_sub_cancel_left, List.getD_eq_getElem?_getD]
  simp only [be32, Nat.add_assoc, hget]

theorem length_be32Bytes (n : ℕ) : (be32Bytes n).length = 4 := by
  rfl

theorem length_palabras (ns : List ℕ) : (ns.flatMap be32Bytes).length = 4 * ns.length := by
  induction ns with
  | nil => rfl
  | cons n ns ih =>
    rw [List.flatMap_cons, List.length_append, ih, length_be32Bytes, List.length_cons]
    omega

/-- The numbers of a table are read where they stand. -/
theorem be32_palabras {ns : List ℕ} (hns : ∀ n ∈ ns, n < 0x100000000) (rest : List UInt8) {i n : ℕ}
    (hn : ns[i]? = some n) : be32 (ns.flatMap be32Bytes ++ rest) (4 * i) = n := by
  induction ns generalizing i with
  | nil => cases hn
  | cons k ns ih =>
    rw [List.flatMap_cons, List.append_assoc]
    cases i with
    | zero =>
      obtain rfl : k = n := Option.some.inj hn
      exact be32_be32Bytes (hns k List.mem_cons_self) _
    | succ i =>
      have hoff : 4 * (i + 1) = (be32Bytes k).length + 4 * i := by
        rw [length_be32Bytes]
        omega
      rw [hoff, be32_append]
      exact ih (fun n hmem => hns n (List.mem_cons_of_mem _ hmem)) hn

theorem length_offsets (start : ℕ) (parts : List (List UInt8)) :
    (offsets start parts).length = parts.length := by
  induction parts generalizing start with
  | nil => rfl
  | cons part parts ih => rw [offsets, List.length_cons, ih, List.length_cons]

theorem le_of_mem_offsets {start n : ℕ} {parts : List (List UInt8)}
    (hn : n ∈ offsets start parts) : n ≤ start + parts.flatten.length := by
  induction parts generalizing start with
  | nil => cases hn
  | cons part parts ih =>
    rw [List.flatten_cons, List.length_append]
    rcases List.mem_cons.mp hn with rfl | hn
    · omega
    · have hle := ih hn
      omega

theorem length_encodeParts (parts : List (List UInt8)) :
    (encodeParts parts).length = 4 * (parts.length + 1) + parts.flatten.length := by
  rw [encodeParts, List.length_append, length_palabras, List.length_cons, length_offsets]

/-- What the table of a frame says. -/
theorem be32_encodeParts {parts : List (List UInt8)} (h : (encodeParts parts).length < 0x100000000)
    {i n : ℕ}
    (hn : (parts.length :: offsets (4 * (parts.length + 1)) parts)[i]? = some n) :
    be32 (encodeParts parts) (4 * i) = n := by
  apply be32_palabras _ _ hn
  intro k hk
  rw [length_encodeParts] at h
  rcases List.mem_cons.mp hk with rfl | hk
  · omega
  · have hle := le_of_mem_offsets hk
    omega

/-- `utf8.decode` of what `utf8.encode` gives. -/
theorem utf8Decode_utf8Encode {s : String} (hbom : s.toList.head? ≠ some '\uFEFF') :
    utf8Decode (s.toList.flatMap String.utf8EncodeChar) = some s := by
  apply utf8Decode_encode
  apply Bool.eq_false_iff.mpr
  intro hpre
  obtain ⟨rest, hrest⟩ := List.isPrefixOf_iff_prefix.mp hpre
  cases hs : s.toList with
  | nil =>
    rw [hs] at hrest
    cases hrest
  | cons c cs =>
    -- Both readings of the first character, so that it is the mark.
    have hmark : ByteArray.utf8DecodeChar? ((String.utf8EncodeChar '\uFEFF').toByteArray ++
        rest.toByteArray) 0 = some '\uFEFF' := ByteArray.utf8DecodeChar?_utf8EncodeChar_append
    have hc : ByteArray.utf8DecodeChar? ((String.utf8EncodeChar c).toByteArray ++
        (cs.flatMap String.utf8EncodeChar).toByteArray) 0 = some c :=
      ByteArray.utf8DecodeChar?_utf8EncodeChar_append
    rw [← List.toByteArray_append] at hmark hc
    rw [hs, List.flatMap_cons] at hrest
    have hbytes : String.utf8EncodeChar '\uFEFF' = [0xEF, 0xBB, 0xBF] := by decide
    rw [hbytes, hrest, hc] at hmark
    apply hbom
    rw [hs]
    exact hmark

/-- The bytes between two offsets, decoded. -/
def Decodifica (d : Dart) (raw : List UInt8) (m : Message) : Prop :=
  ∃ text fields, utf8Decode raw = some text ∧ d.jsonDecode text = some (.obj fields) ∧
    m = ⟨asMap (field fields "header"), asMap (field fields "content"),
      asMap (field fields "parent_header")⟩

/-- A frame that is read as a message: its table and the slice of the JSON lie inside. -/
structure Delimitada (d : Dart) (b : List UInt8) (m : Message) : Prop where
  partes : 2 ≤ be32 b 0
  tabla : 4 * (be32 b 0 + 1) ≤ b.length
  orden : be32 b 4 ≤ be32 b 8
  dentro : be32 b 8 ≤ b.length
  json : Decodifica d ((b.take (be32 b 8)).drop (be32 b 4)) m

theorem parseBinary_iff {d : Dart} {b : List UInt8} {m : Message} :
    parseBinary d b = some m ↔ Delimitada d b m := by
  unfold parseBinary
  constructor
  · intro h
    split at h
    · cases h
    · dsimp only at h
      split at h
      · cases h
      · split at h
        · cases h
        · rename_i hlen htabla hoffsets
          split at h
          · rename_i fields hfields
            obtain ⟨text, htext, hjson⟩ := Option.bind_eq_some_iff.mp hfields
            refine ⟨by omega, by omega, by omega, by omega, ?_⟩
            exact ⟨text, fields, htext, hjson, (Option.some.inj h).symm⟩
          · cases h
  · intro h
    obtain ⟨hpartes, htabla, horden, hdentro, text, fields, htext, hjson, hm⟩ := h
    dsimp only
    rw [if_neg (by omega), if_neg (by omega), if_neg (by omega), htext, Option.bind_some, hjson, hm]

/-- The object of a message has its header, its parent header and its content. -/
structure Lleva (fields : Campos) (m : Message) : Prop where
  header : field fields "header" = .obj m.header
  parent : field fields "parent_header" = .obj m.parent
  content : field fields "content" = .obj m.content

theorem Lleva.decodifica {d : Dart} {fields : Campos} {m : Message} {json : String}
    (h : Lleva fields m) (hjson : d.jsonDecode json = some (.obj fields))
    (hbom : json.toList.head? ≠ some '\uFEFF') :
    Decodifica d (json.toList.flatMap String.utf8EncodeChar) m := by
  refine ⟨json, fields, utf8Decode_utf8Encode hbom, hjson, ?_⟩
  rw [h.header, h.content, h.parent]
  rfl

theorem take_encodeParts (part : List UInt8) (parts : List (List UInt8)) :
    ((encodeParts (part :: parts)).take (4 * (parts.length + 2) + part.length)).drop
      (4 * (parts.length + 2)) = part := by
  have hlen : (((part :: parts).length :: offsets (4 * ((part :: parts).length + 1))
      (part :: parts)).flatMap be32Bytes).length = 4 * (parts.length + 2) := by
    rw [length_palabras, List.length_cons, length_offsets, List.length_cons]
  rw [encodeParts, List.flatten_cons, ← hlen, List.take_length_add_append, List.drop_left,
    List.take_left]

theorem delimitada_encodeBinary {d : Dart} {json : String} {buffers : List (List UInt8)}
    {m : Message} (hbuffers : buffers ≠ [])
    (hlen : (encodeBinary json buffers).length < 0x100000000)
    (hjson : Decodifica d (json.toList.flatMap String.utf8EncodeChar) m) :
    Delimitada d (encodeBinary json buffers) m := by
  unfold encodeBinary at hlen ⊢
  cases buffers with
  | nil => exact absurd rfl hbuffers
  | cons buffer buffers =>
    generalize json.toList.flatMap String.utf8EncodeChar = part at hlen hjson ⊢
    have hcount : be32 (encodeParts (part :: buffer :: buffers)) 0 = buffers.length + 2 :=
      be32_encodeParts (i := 0) hlen rfl
    have hstart : be32 (encodeParts (part :: buffer :: buffers)) 4 = 4 * (buffers.length + 3) :=
      be32_encodeParts (i := 1) hlen rfl
    have hstop : be32 (encodeParts (part :: buffer :: buffers)) 8 =
        4 * (buffers.length + 3) + part.length := be32_encodeParts (i := 2) hlen rfl
    have hlength := length_encodeParts (part :: buffer :: buffers)
    rw [List.flatten_cons, List.length_append, List.length_cons, List.length_cons] at hlength
    refine ⟨by omega, by omega, by omega, by omega, ?_⟩
    rw [hstart, hstop]
    rw [show buffers.length + 3 = (buffer :: buffers).length + 2 from rfl, take_encodeParts]
    exact hjson

/-- The parser on every frame of the format, and on any bytes. No JSON text begins with a
byte order mark. -/
theorem binary_frames (d : Dart)
    (hbom : ∀ s j, d.jsonDecode s = some j → s.toList.head? ≠ some '\uFEFF') :
    (∀ (json : String) (fields : Campos) (m : Message) (buffers : List (List UInt8)),
      d.jsonDecode json = some (.obj fields) → Lleva fields m → buffers ≠ [] →
      (encodeBinary json buffers).length < 0x100000000 →
      parseBinary d (encodeBinary json buffers) = some m) ∧
    ∀ (b : List UInt8) (m : Message), parseBinary d b = some m ↔ Delimitada d b m := by
  constructor
  · intro json fields m buffers hjson hm hbuffers hlen
    apply parseBinary_iff.mpr
    apply delimitada_encodeBinary hbuffers hlen
    exact hm.decodifica hjson (hbom json _ hjson)
  · intro b m
    exact parseBinary_iff

def textoStatus : String :=
  "\x7b\"header\":\x7b\"msg_type\":\"status\"\x7d," ++
    "\"parent_header\":\x7b\x7d,\"content\":\x7b\x7d\x7d"

def camposStatus : Campos :=
  [("header", .obj [("msg_type", .str "status")]), ("parent_header", .obj []), ("content", .obj [])]

/-- A decoder that knows one text. -/
def dartStatus : Dart where
  jsonDecode := fun s => if s = textoStatus then some (.obj camposStatus) else none
  jsonEncode := fun _ => textoStatus
  toText := fun j =>
    match j with
    | .str s => s
    | _ => "Object"
  hashCode := fun _ => 0
  toText_str := fun _ => rfl

theorem binary_frame_status :
    parseBinary dartStatus (encodeBinary textoStatus [[1, 2, 3], []]) =
      some ⟨[("msg_type", .str "status")], [], []⟩ := by
  have hframes := binary_frames dartStatus (by
    intro s j h
    obtain ⟨rfl, _⟩ := Option.ite_none_right_eq_some.mp h
    decide)
  have hjson : dartStatus.jsonDecode textoStatus = some (.obj camposStatus) := by
    dsimp only [dartStatus]
    rw [if_pos rfl]
  apply hframes.1 textoStatus camposStatus _ _ hjson _ (List.cons_ne_nil _ _) (by decide)
  exact ⟨rfl, rfl, rfl⟩

end Nerea.Colab
