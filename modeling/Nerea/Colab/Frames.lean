import Nerea.Shared.Dart
import Nerea.Shared.Whitespace

/-!
# Frames of a Jupyter kernel and the result of a cell

A frame of the socket is a text or bytes; what is understood becomes a message with a
header, a content and the header of the request it answers. A message adds to the result
of a cell, and the idle status and the shell's reply end it.
-/

set_option autoImplicit false

namespace Nerea.Colab

open Json

abbrev Campos := List (String × Json)

structure Message where
  header : Campos
  content : Campos
  parent : Campos

inductive Frame where
  | texto (raw : String)
  | binario (raw : List UInt8)

def asMap : Json → Campos
  | .obj fields => fields
  | _ => []

def decodeText (d : Dart) (raw : String) : Option Message :=
  match d.jsonDecode raw with
  | none => none
  | some (.arr (header :: parent :: _ :: content :: _)) =>
    some ⟨asMap header, asMap content, asMap parent⟩
  | some (.obj fields) =>
    -- Variante Colab: objeto {header, parent_header, metadata, content}.
    some ⟨asMap (field fields "header"), asMap (field fields "content"),
      asMap ((field fields "parent_header").orElse (field fields "parent"))⟩
  | some _ => some ⟨[], [], []⟩

def be32 (b : List UInt8) (off : ℕ) : ℕ :=
  (b.getD off 0).toNat * 0x1000000 + (b.getD (off + 1) 0).toNat * 0x10000 +
    (b.getD (off + 2) 0).toNat * 0x100 + (b.getD (off + 3) 0).toNat

/-- `utf8.decode`, which drops a byte order mark in front. -/
def utf8Decode (b : List UInt8) : Option String :=
  let b := if [0xEF, 0xBB, 0xBF].isPrefixOf b then b.drop 3 else b
  String.fromUTF8? ⟨b.toArray⟩

theorem utf8Decode_encode (s : String)
    (h : [0xEF, 0xBB, 0xBF].isPrefixOf (s.toList.flatMap String.utf8EncodeChar) = false) :
    utf8Decode (s.toList.flatMap String.utf8EncodeChar) = some s := by
  have hbytes : (⟨(s.toList.flatMap String.utf8EncodeChar).toArray⟩ : ByteArray) =
      s.toByteArray := by
    rw [← String.utf8Encode_toList]
    apply ByteArray.ext
    exact List.data_toByteArray.symm
  unfold utf8Decode
  dsimp only
  rw [if_neg (by rw [h]; nofun), hbytes]
  unfold String.fromUTF8?
  rw [dif_pos s.isValidUTF8]
  rfl

def parseBinary (d : Dart) (b : List UInt8) : Option Message :=
  if b.length < 8 then none
  else
    let nbufs := be32 b 0
    if nbufs < 2 ∨ b.length < 4 * (nbufs + 1) then none
    else
      let jsonStart := be32 b 4
      let jsonStop := be32 b 8
      if jsonStop < jsonStart ∨ b.length < jsonStop then none
      else
        match (utf8Decode ((b.take jsonStop).drop jsonStart)).bind d.jsonDecode with
        | some (.obj fields) =>
          some ⟨asMap (field fields "header"), asMap (field fields "content"),
            asMap (field fields "parent_header")⟩
        | _ => none

/-- `_decodeFrame` inside `_onFrame`, which ignores what is not understood. -/
def decodeFrame (d : Dart) : Frame → Option Message
  | .texto raw => decodeText d raw
  | .binario raw => parseBinary d raw

def escape : Char := Char.ofNat 0x1B

/-- How far a match of `\x1b\[[0-9;]*[A-Za-z]` has come. -/
inductive Ansi where
  | texto
  | escape
  | parametros (leidos : List Char)

def stripAnsi.go : Ansi → List Char → List Char
  | .texto, [] => []
  | .escape, [] => [escape]
  | .parametros leidos, [] => escape :: '[' :: leidos
  | .texto, c :: cs => if c = escape then go .escape cs else c :: go .texto cs
  | .escape, c :: cs =>
    if c = '[' then go (.parametros []) cs
    else if c = escape then escape :: go .escape cs
    else escape :: c :: go .texto cs
  | .parametros leidos, c :: cs =>
    if c.isDigit ∨ c = ';' then go (.parametros (leidos ++ [c])) cs
    else if c.isAlpha then go .texto cs
    else escape :: '[' :: leidos ++ if c = escape then go .escape cs else c :: go .texto cs

def stripAnsi (s : String) : String := String.ofList (stripAnsi.go .texto s.toList)

inductive Status where
  | ok | error | timeout
deriving DecidableEq

/-- What a caller reads off a result. -/
structure Salida where
  stdoutBuf : String := ""
  stderrBuf : String := ""
  results : List String := []
  errorBuf : String := ""
  status : Status := .ok
deriving DecidableEq

structure ColabExecResult extends Salida where
  connLost : Bool := false
  gotFrames : Bool := false

namespace Salida

def trim (s : String) : String :=
  String.ofList (Whitespace.trimBoth (fun c => Whitespace.isWhiteSpace c || c.toNat == 0xFEFF)
    s.toList)

def parts (r : Salida) : List String :=
  (if r.stdoutBuf = "" then [] else [r.stdoutBuf]) ++
    (if r.results = [] then [] else ["\n".intercalate r.results]) ++
    (if r.stderrBuf = "" then [] else [r.stderrBuf]) ++
    (if r.errorBuf = "" then [] else [r.errorBuf])

def output (r : Salida) : String := trim ("\n".intercalate r.parts)

def isError (r : Salida) : Bool := r.status != .ok

/-- `errorBuf.writeln(text)` under a new status. -/
def fail (r : Salida) (status : Status) (text : String) : Salida :=
  { r with status := status, errorBuf := r.errorBuf ++ text ++ "\n" }

end Salida

namespace Message

inductive MsgType where
  | stream | executeResult | displayData | error | status | executeReply | errorOutput
  | inputRequest | otro
deriving DecidableEq

def msgType (m : Message) : MsgType :=
  match field m.header "msg_type" with
  | .str s =>
    if s = "stream" then .stream
    else if s = "execute_result" then .executeResult
    else if s = "display_data" then .displayData
    else if s = "error" then .error
    else if s = "status" then .status
    else if s = "execute_reply" then .executeReply
    else if s = "error_output" then .errorOutput
    else if s = "input_request" then .inputRequest
    else .otro
  | _ => .otro

/-- The request the message belongs to: nothing in the runtime reads it. -/
def parentId (m : Message) : Option String :=
  match field m.parent "msg_id" with
  | .str id => some id
  | _ => none

def plainText (m : Message) : Option String :=
  match ((field m.content "data").orElse (.obj [])).get "text/plain" with
  | some (.str text) => some text
  | _ => none

def isStr (j : Json) (s : String) : Bool :=
  match j with
  | .str t => t == s
  | _ => false

def isIdle (m : Message) : Bool :=
  m.msgType == .status && isStr (field m.content "execution_state") "idle"

def ends (m : Message) : Bool := m.isIdle || m.msgType == .executeReply

def ticks (m : Message) : Bool :=
  match m.msgType with
  | .stream => true
  | .executeResult => m.plainText.isSome
  | .displayData => m.plainText.isSome
  | .error => true
  | .errorOutput => true
  | _ => false

end Message

def Salida.add (d : Dart) (r : Salida) (m : Message) : Salida :=
  match m.msgType with
  | .stream =>
    { r with stdoutBuf := r.stdoutBuf ++ stripAnsi (d.textOf (field m.content "text")) }
  | .executeResult | .displayData =>
    match m.plainText with
    | some text => { r with results := r.results ++ [stripAnsi text] }
    | none => r
  | .error =>
    match field m.content "traceback" with
    | .arr tb => r.fail .error (stripAnsi ("\n".intercalate (tb.map d.toText)))
    | _ => { r with status := .error }
  | .executeReply =>
    if Message.isStr (field m.content "status") "error" ∨
        Message.isStr (field m.content "status") "abort" then { r with status := .error }
    else r
  | .errorOutput => { r with stderrBuf := r.stderrBuf ++ d.textOf (field m.content "text") }
  | _ => r

namespace Salida

def Blank (s : String) : Prop :=
  ∀ c ∈ s.toList, (Whitespace.isWhiteSpace c || c.toNat == 0xFEFF) = true

theorem trim_eq_empty {s : String} : trim s = "" ↔ Blank s := by
  rw [trim, String.ofList_eq_empty_iff, Whitespace.trimBoth_eq_nil]
  rfl

theorem blank_empty : Blank "" := by
  intro c hc
  simp at hc

theorem blank_append {s t : String} : Blank (s ++ t) ↔ Blank s ∧ Blank t := by
  simp only [Blank, String.toList_append, List.mem_append, or_imp, forall_and]

theorem blank_newline : Blank "\n" := by
  intro c hc
  obtain rfl := List.mem_singleton.mp hc
  rfl

theorem blank_lines {l : List String} : Blank ("\n".intercalate l) ↔ ∀ s ∈ l, Blank s := by
  induction l with
  | nil => simpa using blank_empty
  | cons s l ih =>
    cases l with
    | nil => simp
    | cons t l =>
      rw [String.intercalate_cons_cons, blank_append, blank_append, ih]
      simp [blank_newline]

theorem output_eq_empty {r : Salida} : r.output = "" ↔
    Blank r.stdoutBuf ∧ (∀ t ∈ r.results, Blank t) ∧ Blank r.stderrBuf ∧ Blank r.errorBuf := by
  have hpart {s t : String} (hst : s = "" → Blank t) :
      (∀ u ∈ (if s = "" then [] else [t]), Blank u) ↔ Blank t := by
    split
    · rename_i hs
      simpa using hst hs
    · simp
  have hempty {s : String} (hs : s = "") : Blank s := hs ▸ blank_empty
  have hresults : (∀ u ∈ (if r.results = [] then [] else ["\n".intercalate r.results]), Blank u) ↔
      ∀ t ∈ r.results, Blank t := by
    split
    · rename_i hr
      simp [hr]
    · simp [blank_lines]
  rw [output, trim_eq_empty, blank_lines, parts]
  simp only [List.forall_mem_append, hresults, hpart hempty, and_assoc]

end Salida

structure Salida.Callada (r : Salida) : Prop where
  output : r.output = ""
  isError : r.isError = false

/-- The message alone makes neither an error nor such text. -/
def Message.Mudo (d : Dart) (m : Message) : Prop := (Salida.add d {} m).Callada

namespace Salida

variable {d : Dart} {r : Salida} {m : Message}

theorem callada_empty : ({} : Salida).Callada := ⟨rfl, rfl⟩

theorem callada_iff : r.Callada ↔ r.isError = false ∧ Blank r.stdoutBuf ∧
    (∀ t ∈ r.results, Blank t) ∧ Blank r.stderrBuf ∧ Blank r.errorBuf := by
  rw [← output_eq_empty]
  exact ⟨fun h => ⟨h.isError, h.output⟩, fun h => ⟨h.2, h.1⟩⟩

theorem callada_of_add_eq (h : ∀ r, add d r m = r) (hr : (r.add d m).Callada) :
    r.Callada ∧ m.Mudo d := by
  rw [h] at hr
  refine ⟨hr, ?_⟩
  rw [Message.Mudo, h]
  exact callada_empty

theorem callada_of_add_result
    (h : m.msgType = .executeResult ∨ m.msgType = .displayData)
    (hr : (r.add d m).Callada) : r.Callada ∧ m.Mudo d := by
  have hadd (r : Salida) : r.add d m = match m.plainText with
      | some text => { r with results := r.results ++ [stripAnsi text] }
      | none => r := by
    rcases h with h | h <;> rw [add, h]
  cases htext : m.plainText with
  | none =>
    apply callada_of_add_eq _ hr
    intro r
    rw [hadd, htext]
  | some text =>
    rw [hadd, htext, callada_iff] at hr
    obtain ⟨hok, hstdout, hresults, hrest⟩ := hr
    obtain ⟨hresults, hnew⟩ := List.forall_mem_append.mp hresults
    refine ⟨callada_iff.mpr ⟨hok, hstdout, hresults, hrest⟩, ?_⟩
    rw [Message.Mudo, hadd, htext, callada_iff]
    exact ⟨rfl, blank_empty, hnew, blank_empty, blank_empty⟩

theorem isError_of_add (h : (r.add d m).isError = false) : r.isError = false := by
  unfold add at h
  split at h
  · exact h
  · split at h <;> exact h
  · split at h <;> exact h
  · split at h <;> cases h
  · split at h
    · cases h
    · exact h
  · exact h
  · exact h

theorem callada_of_add (hr : (r.add d m).Callada) : r.Callada ∧ m.Mudo d := by
  cases htype : m.msgType with
  | stream =>
    simp only [Message.Mudo, add, htype, callada_iff, blank_append] at hr ⊢
    obtain ⟨hok, ⟨hstdout, htext⟩, hrest⟩ := hr
    exact ⟨⟨hok, hstdout, hrest⟩, rfl, ⟨blank_empty, htext⟩, by simp, blank_empty, blank_empty⟩
  | executeResult => exact callada_of_add_result (Or.inl htype) hr
  | displayData => exact callada_of_add_result (Or.inr htype) hr
  | error =>
    -- An error stays one.
    have hok := hr.isError
    simp only [add, htype] at hok
    split at hok <;> cases hok
  | executeReply =>
    have hok := hr.isError
    simp only [add, htype] at hok
    split at hok
    · cases hok
    · rename_i hst
      exact callada_of_add_eq (fun r => by simp only [add, htype, if_neg hst]) hr
  | errorOutput =>
    simp only [Message.Mudo, add, htype, callada_iff, blank_append] at hr ⊢
    obtain ⟨hok, hstdout, hresults, ⟨hstderr, htext⟩, herror⟩ := hr
    exact ⟨⟨hok, hstdout, hresults, hstderr, herror⟩, rfl, blank_empty, by simp,
      ⟨blank_empty, htext⟩, blank_empty⟩
  | status => exact callada_of_add_eq (fun r => by simp only [add, htype]) hr
  | inputRequest => exact callada_of_add_eq (fun r => by simp only [add, htype]) hr
  | otro => exact callada_of_add_eq (fun r => by simp only [add, htype]) hr

end Salida

end Nerea.Colab
