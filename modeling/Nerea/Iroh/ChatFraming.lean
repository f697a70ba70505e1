import Nerea.Shared.Utf8Lossy
import Nerea.Shared.Whitespace

/-!
# The chat channel: lines over a byte stream

One channel of `irohp2p.rs`. Accepted messages wait in the queue of the writer task,
which appends each as a line to the QUIC stream; the reader task takes up to 4096
bytes at a time, decodes and splits every read on its own, and `chat_leer` drains the
lines collected so far. What the peer reads is what was sent exactly when every read
ends at a line end.
-/

set_option autoImplicit false

namespace Nerea.Iroh

open Segments Utf8Lossy Whitespace

/-- A Rust string: Unicode scalar values. -/
abbrev Texto := List Char

structure LineaChat where
  de : Texto
  texto : Texto
  deriving DecidableEq

/-- One channel: the writer's queue, the bytes written and not yet read, and the lines
waiting for the UI. -/
structure Canal where
  cola : List Texto
  cable : List UInt8
  entrantes : List LineaChat
  deriving DecidableEq

def Canal.nuevo : Canal := ⟨[], [], []⟩

@[simp] theorem Canal.nuevo_cola : Canal.nuevo.cola = [] := rfl

@[simp] theorem Canal.nuevo_cable : Canal.nuevo.cable = [] := rfl

@[simp] theorem Canal.nuevo_entrantes : Canal.nuevo.entrantes = [] := rfl

def Canal.Vacio (c : Canal) : Prop := c.cola = [] ∧ c.cable = [] ∧ c.entrantes = []

/-- `format!("{txt}\n").as_bytes()` -/
def renglon (txt : Texto) : List UInt8 := (txt ++ ['\n']).flatMap String.utf8EncodeChar

def chatMandar (c : Canal) (texto : Texto) : Except String Canal :=
  if trimBoth isWhiteSpace texto = [] then .error "mensaje vacío"
  else .ok { c with cola := c.cola ++ [texto] }

def escritor (c : Canal) : Option Canal :=
  match c.cola with
  | [] => none
  | txt :: resto => some { c with cola := resto, cable := c.cable ++ renglon txt }

def lineas (buf : List UInt8) : List Texto :=
  ((fromUtf8Lossy buf).splitOn '\n').filter fun l => !l.isEmpty

/-- One turn of the reader task, in which the stream hands over `n` bytes. -/
def lector (c : Canal) (n : Nat) : Option Canal :=
  if 1 ≤ n ∧ n ≤ 4096 ∧ n ≤ c.cable.length then
    some { c with
      cable := c.cable.drop n
      entrantes := c.entrantes ++ (lineas (c.cable.take n)).map fun l => ⟨['p', 'a', 'r'], l⟩ }
  else none

def chatLeer (c : Canal) : Canal × List Texto :=
  ({ c with entrantes := [] }, c.entrantes.map LineaChat.texto)

inductive Evento where
  | mandar (texto : Texto)
  | escribir
  | recibir (n : Nat)
  | leer

/-- The channel after an event, and what `chat_leer` returned if it was one. A refused
message leaves the channel as it is. -/
def paso (c : Canal) : Evento → Option (Canal × List Texto)
  | .mandar texto =>
    match chatMandar c texto with
    | .error _ => some (c, [])
    | .ok c' => some (c', [])
  | .escribir => (escritor c).map (·, [])
  | .recibir n => (lector c n).map (·, [])
  | .leer => some (chatLeer c)

/-- A run, with everything its `chat_leer` calls returned. -/
def correr : Canal → List Evento → Option (Canal × List Texto)
  | c, [] => some (c, [])
  | c, e :: es =>
    match paso c e with
    | none => none
    | some (c', ls) =>
      match correr c' es with
      | none => none
      | some (c'', ls') => some (c'', ls ++ ls')

def aceptados (es : List Evento) : List Texto :=
  es.flatMap fun
    | .mandar texto => if trimBoth isWhiteSpace texto = [] then [] else [texto]
    | _ => []

/-- Every read of the run ends beside a newline: the last byte read is one, or the
next byte of the stream is. -/
def CortesLimpios : Canal → List Evento → Prop
  | _, [] => True
  | c, e :: es =>
    (∀ n, e = .recibir n → CleanCut 0x0A (c.cable.take n) (c.cable.drop n)) ∧
      ∀ c' ls, paso c e = some (c', ls) → CortesLimpios c' es

def lectura (c : Canal) : Evento → List (List UInt8)
  | .recibir n => [c.cable.take n]
  | _ => []

def lecturas : Canal → List Evento → List (List UInt8)
  | _, [] => []
  | c, e :: es =>
    lectura c e ++ match paso c e with
    | none => []
    | some (c', _) => lecturas c' es

theorem renglon_eq (txt : Texto) :
    renglon txt = txt.flatMap String.utf8EncodeChar ++ [0x0A] := by
  rw [renglon, List.flatMap_append]
  congr 1

theorem lineas_eq (buf : List UInt8) :
    lineas buf = (segments 0x0A buf).map fromUtf8Lossy :=
  segments_fromUtf8Lossy buf

theorem paso_cases {c c' : Canal} {e : Evento} {ls : List Texto}
    (h : paso c e = some (c', ls)) :
    (∃ t, e = .mandar t ∧ ls = [] ∧ c' = { c with cola := c.cola ++ aceptados [e] }) ∨
    (∃ t ts, e = .escribir ∧ c.cola = t :: ts ∧ ls = [] ∧
      c' = { c with cola := ts, cable := c.cable ++ renglon t }) ∨
    (∃ n, e = .recibir n ∧ 1 ≤ n ∧ n ≤ c.cable.length ∧ ls = [] ∧
      c' = { c with
        cable := c.cable.drop n
        entrantes := c.entrantes ++
          (lineas (c.cable.take n)).map fun l => ⟨['p', 'a', 'r'], l⟩ }) ∨
    (e = .leer ∧ ls = c.entrantes.map LineaChat.texto ∧ c' = { c with entrantes := [] }) := by
  cases e with
  | mandar t =>
    refine Or.inl ⟨t, rfl, ?_⟩
    simp only [paso, chatMandar] at h
    by_cases hb : trimBoth isWhiteSpace t = [] <;> simp_all [aceptados]
  | escribir =>
    refine Or.inr (Or.inl ?_)
    cases hc : c.cola with
    | nil => simp [paso, escritor, hc] at h
    | cons t ts =>
      simp only [paso, escritor, hc, Option.map_some, Option.some.injEq, Prod.mk.injEq] at h
      exact ⟨t, ts, rfl, rfl, h.2.symm, h.1.symm⟩
  | recibir n =>
    refine Or.inr (Or.inr (Or.inl ⟨n, rfl, ?_⟩))
    simp only [paso, lector] at h
    split at h
    · rename_i hn
      simp only [Option.map_some, Option.some.injEq, Prod.mk.injEq] at h
      exact ⟨hn.1, hn.2.2, h.2.symm, h.1.symm⟩
    · simp at h
  | leer =>
    simp only [paso, chatLeer, Option.some.injEq, Prod.mk.injEq] at h
    exact Or.inr (Or.inr (Or.inr ⟨rfl, h.2.symm, h.1.symm⟩))

theorem correr_cons {c c' : Canal} {e : Evento} {es : List Evento} {ls : List Texto}
    (h : correr c (e :: es) = some (c', ls)) :
    ∃ d ls₁ ls₂, paso c e = some (d, ls₁) ∧ correr d es = some (c', ls₂) ∧
      ls = ls₁ ++ ls₂ := by
  rw [correr] at h
  split at h
  · simp at h
  · rename_i d ls₁ hp
    split at h
    · simp at h
    · rename_i d' ls₂ hr
      simp only [Option.some.injEq, Prod.mk.injEq] at h
      obtain ⟨rfl, rfl⟩ := h
      exact ⟨d, ls₁, ls₂, hp, hr, rfl⟩

theorem aceptados_cons (e : Evento) (es : List Evento) :
    aceptados (e :: es) = aceptados [e] ++ aceptados es := by
  simp [aceptados]

theorem lecturas_cons {c d : Canal} {e : Evento} {ls : List Texto} (es : List Evento)
    (h : paso c e = some (d, ls)) : lecturas c (e :: es) = lectura c e ++ lecturas d es := by
  simp only [lecturas, h]

/-- No byte is lost, repeated or reordered between the writer and the reader. -/
theorem flatten_lecturas {c c' : Canal} {es : List Evento} {ls : List Texto}
    (h : correr c es = some (c', ls)) :
    c.cable ++ (c.cola ++ aceptados es).flatMap renglon =
      (lecturas c es).flatten ++ c'.cable ++ c'.cola.flatMap renglon := by
  induction es generalizing c ls with
  | nil =>
    simp only [correr, Option.some.injEq, Prod.mk.injEq] at h
    simp [h.1, lecturas, aceptados]
  | cons e es ih =>
    obtain ⟨d, ls₁, ls₂, hp, hr, rfl⟩ := correr_cons h
    have hd := ih hr
    rw [aceptados_cons, lecturas_cons es hp]
    rcases paso_cases hp with ⟨t, rfl, -, rfl⟩ | ⟨t, ts, rfl, hc, -, rfl⟩ |
      ⟨n, rfl, -, -, -, rfl⟩ | ⟨rfl, -, rfl⟩
    · simpa [lectura, List.append_assoc] using hd
    · simpa [lectura, hc, aceptados, List.append_assoc] using hd
    · have htake : c.cable = c.cable.take n ++ c.cable.drop n := (List.take_append_drop n _).symm
      simp only [lectura, aceptados, List.flatMap_cons, List.flatMap_nil, List.nil_append,
        List.append_nil, List.singleton_append, List.flatten_cons, List.append_assoc] at hd ⊢
      rw [← hd, ← List.append_assoc, List.take_append_drop]
    · simpa [lectura, aceptados] using hd

/-- What was drained and what is still waiting are the lines of the reads, in order. -/
theorem leidos_eq {c c' : Canal} {es : List Evento} {ls : List Texto}
    (h : correr c es = some (c', ls)) :
    ls ++ c'.entrantes.map LineaChat.texto =
      c.entrantes.map LineaChat.texto ++ (lecturas c es).flatMap lineas := by
  induction es generalizing c ls with
  | nil =>
    simp only [correr, Option.some.injEq, Prod.mk.injEq] at h
    simp [← h.1, ← h.2, lecturas]
  | cons e es ih =>
    obtain ⟨d, ls₁, ls₂, hp, hr, rfl⟩ := correr_cons h
    have hd := ih hr
    rw [lecturas_cons es hp]
    rcases paso_cases hp with ⟨t, rfl, rfl, rfl⟩ | ⟨t, ts, rfl, -, rfl, rfl⟩ |
      ⟨n, rfl, -, -, rfl, rfl⟩ | ⟨rfl, rfl, rfl⟩
    · simpa [lectura] using hd
    · simpa [lectura] using hd
    · simpa [lectura, List.append_assoc, Function.comp_def] using hd
    · simpa [lectura, List.append_assoc] using hd

/-- The wire is empty or ends with a complete line. -/
def Canal.Cerrado (c : Canal) : Prop := c.cable = [] ∨ c.cable.getLast? = some 0x0A

theorem paso_cerrado {c c' : Canal} {e : Evento} {ls : List Texto} (hc : c.Cerrado)
    (h : paso c e = some (c', ls)) : c'.Cerrado := by
  rcases paso_cases h with ⟨t, -, -, rfl⟩ | ⟨t, ts, -, -, -, rfl⟩ |
    ⟨n, -, -, hn, -, rfl⟩ | ⟨-, -, rfl⟩
  · exact hc
  · right
    simp [renglon_eq, ← List.append_assoc]
  · by_cases hlen : n = c.cable.length
    · exact Or.inl (by simp [hlen])
    · rcases hc with hc | hc
      · simp [hc] at hn hlen
        omega
      · right
        rw [List.getLast?_drop]
        simp only [hc]
        split
        · omega
        · rfl
  · exact hc

theorem cortesLimpios_iff {c c' : Canal} {es : List Evento} {ls : List Texto}
    (hc : c.Cerrado) (h : correr c es = some (c', ls)) (hcola : c'.cola = [])
    (hcable : c'.cable = []) :
    CortesLimpios c es ↔ CleanCuts 0x0A (lecturas c es) := by
  induction es generalizing c ls with
  | nil => simp [CortesLimpios, lecturas, CleanCuts]
  | cons e es ih =>
    obtain ⟨d, ls₁, ls₂, hp, hr, rfl⟩ := correr_cons h
    have hd := ih (paso_cerrado hc hp) hr
    have hflat := flatten_lecturas hr
    have hpaso : (∀ c' ls, paso c e = some (c', ls) → CortesLimpios c' es) ↔
        CortesLimpios d es := by
      constructor
      · exact fun hall => hall d ls₁ hp
      · intro hcl c'' ls'' hp'
        simp only [hp, Option.some.injEq, Prod.mk.injEq] at hp'
        exact hp'.1 ▸ hcl
    rw [CortesLimpios, hpaso, hd, lecturas_cons es hp]
    cases e with
    | recibir n =>
      have hcut : CleanCut 0x0A (c.cable.take n) (c.cable.drop n) ↔
          CleanCut 0x0A (c.cable.take n) (lecturas d es).flatten := by
        obtain ⟨n', hn', -, -, -, rfl⟩ : ∃ n', Evento.recibir n = .recibir n' ∧ 1 ≤ n' ∧
            n' ≤ c.cable.length ∧ ls₁ = [] ∧ _ := by
          simpa using paso_cases hp
        obtain rfl : n = n' := by simpa using hn'
        simp only [hcola, hcable, List.flatMap_nil, List.append_nil] at hflat
        rw [← hflat]
        by_cases hdrop : c.cable.drop n = []
        · have htake : c.cable.take n = c.cable := by
            simpa [hdrop] using List.take_append_drop n c.cable
          rw [htake]
          rcases hc with hc | hc
          · exact ⟨fun _ => Or.inl hc, fun _ => Or.inl hc⟩
          · exact ⟨fun _ => Or.inr (Or.inr (Or.inl hc)), fun _ => Or.inr (Or.inl hdrop)⟩
        · exact (cleanCut_append_iff _ hdrop).symm
      simp only [lectura, List.singleton_append, CleanCuts, ← hcut]
      simp
    | _ => simp [lectura]

theorem ne_nil_of_aceptado {es : List Evento} {t : Texto} (h : t ∈ aceptados es) : t ≠ [] := by
  obtain ⟨e, -, ht⟩ := List.mem_flatMap.mp h
  rintro rfl
  split at ht
  · split at ht
    · simp at ht
    · rename_i htrim
      obtain rfl := List.mem_singleton.mp ht
      exact htrim rfl
  · simp at ht

theorem newline_of_renglon {t : Texto} (h : 0x0A ∈ t.flatMap String.utf8EncodeChar) :
    '\n' ∈ t :=
  mem_of_ascii (by decide) h

theorem utf8_ne_nil {t : Texto} (h : t ≠ []) : t.flatMap String.utf8EncodeChar ≠ [] := by
  intro he
  have ht := fromUtf8Lossy_flatMap t
  rw [he] at ht
  exact h ht.symm

theorem segments_flatMap_renglon {ts : List Texto} (hne : ∀ t ∈ ts, t ≠ [])
    (hnl : ∀ t ∈ ts, '\n' ∉ t) :
    (segments 0x0A (ts.flatMap renglon)).map fromUtf8Lossy = ts := by
  induction ts with
  | nil => simp
  | cons t ts ih =>
    have ht : 0x0A ∉ t.flatMap String.utf8EncodeChar :=
      fun hm => hnl t List.mem_cons_self (newline_of_renglon hm)
    have hrest := ih (fun u hu => hne u (List.mem_cons_of_mem t hu))
      (fun u hu => hnl u (List.mem_cons_of_mem t hu))
    rw [List.flatMap_cons, renglon_eq, List.append_assoc, List.singleton_append,
      segments_append_cons, segments_of_not_mem ht (utf8_ne_nil (hne t List.mem_cons_self)),
      List.map_append, hrest]
    simp [fromUtf8Lossy_flatMap]

/-- What the peer's `chat_leer` calls return over a run that delivers everything is what
`chat_mandar` accepted, exactly when every read ended beside a newline. -/
theorem leidos_eq_aceptados_iff {es : List Evento} {c : Canal} {leidos : List Texto}
    (h : correr Canal.nuevo es = some (c, leidos)) (hvacio : c.Vacio)
    (hnl : ∀ t ∈ aceptados es, '\n' ∉ t) :
    leidos = aceptados es ↔ CortesLimpios Canal.nuevo es := by
  obtain ⟨hcola, hcable, hentrantes⟩ := hvacio
  have hflat := flatten_lecturas h
  have hleidos := leidos_eq h
  have hmsgs := segments_flatMap_renglon (fun t ht => ne_nil_of_aceptado ht) hnl
  simp only [Canal.nuevo_cola, Canal.nuevo_cable, Canal.nuevo_entrantes, hcola, hcable,
    hentrantes, List.nil_append, List.map_nil, List.flatMap_nil, List.append_nil]
    at hflat hleidos
  rw [cortesLimpios_iff (Or.inl rfl) h hcola hcable, hleidos]
  have hlineas : lineas = fun buf => (segments 0x0A buf).map fromUtf8Lossy := funext lineas_eq
  rw [hlineas, ← List.map_flatMap]
  constructor
  · intro heq
    apply cleanCuts_of_length
    have hlen := congrArg List.length (heq.trans hmsgs.symm)
    simpa [hflat] using hlen
  · intro hclean
    rw [flatMap_segments hclean, ← hflat, hmsgs]

/-- The run in which two messages arrive in three reads, each cut beside a newline. -/
def cortesAlFinal : List Evento :=
  [.mandar ['h', 'o', 'l', 'a'], .mandar ['ñ'], .escribir, .escribir, .recibir 5,
    .recibir 2, .recibir 1, .leer]

theorem leidos_eq_aceptados_cortesAlFinal :
    [['h', 'o', 'l', 'a'], ['ñ']] = aceptados cortesAlFinal ↔
      CortesLimpios Canal.nuevo cortesAlFinal :=
  leidos_eq_aceptados_iff (c := Canal.nuevo) (by decide) ⟨rfl, rfl, rfl⟩ (by decide)

/-- The run in which `ñ` is sent alone and the first read takes one byte of two. -/
def cortePorMedio : List Evento :=
  [.mandar ['ñ'], .escribir, .recibir 1, .recibir 2, .leer]

theorem cortePorMedio_danado :
    ¬∀ (es : List Evento) (c : Canal) (leidos : List Texto),
      correr Canal.nuevo es = some (c, leidos) → c.Vacio →
      (∀ t ∈ aceptados es, '\n' ∉ t) → leidos = aceptados es := by
  intro h
  have hrun : correr Canal.nuevo cortePorMedio =
      some (Canal.nuevo, [['\uFFFD'], ['\uFFFD']]) := by decide
  have heq := h cortePorMedio Canal.nuevo _ hrun ⟨rfl, rfl, rfl⟩ (by decide)
  exact absurd heq (by decide)

end Nerea.Iroh
