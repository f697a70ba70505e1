import Nerea.Shared.Download
import Nerea.Shared.Run

/-!
# The downloads of the models

Both downloads write each file where the checks look for it, and the checks only ask whether
it is there. So a check is right when the transfer that opened the file last has no part of
its body left, be it under way or interrupted. A second call of `download` is a second
transfer: nothing keeps it out while the first one writes.
-/

set_option autoImplicit false

namespace Nerea.Services

open Download (Disk Phase Received)

inductive ModelFile where
  | ckpt | tok
  deriving DecidableEq

namespace LaureliaChat

/-- Where a call of `download` stands. `_missing` asks for the files one by one; what is there
is not downloaded. -/
inductive Fase where
  | sinLlamar
  | missing (resto faltan : List ModelFile)
  | transfiere (q : Phase ModelFile)
  | fin (ok : Bool)

/-- What a call throws ends it. -/
def Fase.cae : Fase → Fase
  | sinLlamar => sinLlamar
  | fin ok => fin ok
  | _ => fin false

end LaureliaChat

/-- Calls of `download` are numbered. -/
structure LaureliaChat where
  disk : Disk ModelFile
  llamadas : ℕ → LaureliaChat.Fase

namespace LaureliaChat

inductive Evento where
  | download (i : ℕ)
  /-- The call learns whether the next file is there. -/
  | existe (i : ℕ)
  /-- `load` or `countTokens` asks for a file. -/
  | comprueba (f : ModelFile)
  | response (i statusCode : ℕ) (body : List UInt8)
  | opened (i : ℕ)
  /-- The next `n` bytes of the body are written. -/
  | written (i n : ℕ)
  | closed (i : ℕ)
  /-- What the call awaits throws. -/
  | falla (i : ℕ)
  /-- The process dies; what is on the disk stays. -/
  | muere

def files : List ModelFile := [.ckpt, .tok]

def setLlamada (s : LaureliaChat) (i : ℕ) (p : Fase) : LaureliaChat :=
  { s with llamadas := Function.update s.llamadas i p }

def download (s : LaureliaChat) (i : ℕ) : LaureliaChat :=
  match s.llamadas i with
  | .sinLlamar => s.setLlamada i (.missing files [])
  | _ => s

def trasMissing : List ModelFile → List ModelFile → Fase
  | [], [] => .fin true
  | [], f :: _ => .transfiere (.requested f)
  | f :: resto, faltan => .missing (f :: resto) faltan

def existe (s : LaureliaChat) (i : ℕ) : LaureliaChat :=
  match s.llamadas i with
  | .missing (f :: resto) faltan =>
    s.setLlamada i (trasMissing resto (if (s.disk f).isSome then faltan else faltan ++ [f]))
  | _ => s

def response (s : LaureliaChat) (i statusCode : ℕ) (body : List UInt8) : LaureliaChat :=
  match s.llamadas i with
  | .transfiere (.requested f) =>
    if statusCode ≠ 200 then s.setLlamada i (.fin false)
    else s.setLlamada i (.transfiere (.answered f body))
  | _ => s

def opened (s : LaureliaChat) (i : ℕ) : LaureliaChat :=
  match s.llamadas i with
  | .transfiere (.answered f body) =>
    { s with disk := s.disk.openWrite i f body }.setLlamada i (.transfiere (.writing f 0 body))
  | _ => s

def written (s : LaureliaChat) (i n : ℕ) : LaureliaChat :=
  match s.llamadas i with
  | .transfiere (.writing f off rest) =>
    { s with disk := s.disk.write i f off (rest.take n) }.setLlamada i
      (.transfiere (.writing f (off + (rest.take n).length) (rest.drop n)))
  | _ => s

def closed (s : LaureliaChat) (i : ℕ) : LaureliaChat :=
  match s.llamadas i with
  | .transfiere (.writing _ _ []) => s.setLlamada i (.missing files [])
  | _ => s

def paso (s : LaureliaChat) : Evento → LaureliaChat
  | .download i => s.download i
  | .existe i => s.existe i
  | .comprueba _ => s
  | .response i statusCode body => s.response i statusCode body
  | .opened i => s.opened i
  | .written i n => s.written i n
  | .closed i => s.closed i
  | .falla i => s.setLlamada i (s.llamadas i).cae
  | .muere => { s with llamadas := fun i => (s.llamadas i).cae }

def inicial : LaureliaChat := ⟨Disk.empty, fun _ => .sinLlamar⟩

/-- What a check finds there is complete, and so is every file when a download returns
true. -/
def Fiable (s : LaureliaChat) : Evento → Prop
  | .existe i =>
    (∀ f resto faltan, s.llamadas i = .missing (f :: resto) faltan →
      ∀ r, s.disk f = some r → r.Complete) ∧
    (s.llamadas i ≠ .fin true → (s.existe i).llamadas i = .fin true →
      ∀ f, ∃ r, s.disk f = some r ∧ r.Complete)
  | .comprueba f => ∀ r, s.disk f = some r → r.Complete
  | _ => True

/-- A check comes when the transfer that opened the file last has no part of the body left, and
the check that ends a download when this is so of every file. What a transfer writes to a file
that another has opened since is what the body of the latter has there. -/
def EnTurno (s : LaureliaChat) : Evento → Prop
  | .existe i => ∀ f resto faltan, s.llamadas i = .missing (f :: resto) faltan →
      ¬ s.disk.Lacks f ∧
        (resto = [] → faltan = [] → (s.disk f).isSome → ∀ g, ¬ s.disk.Lacks g)
  | .comprueba f => ¬ s.disk.Lacks f
  | .written i n => ∀ f off rest r, s.llamadas i = .transfiere (.writing f off rest) →
      s.disk f = some r → r.opener ≠ i → rest.take n <+: r.body.drop off
  | _ => True

/-- No transfer writes to a file that another has opened since. -/
def Propia (s : LaureliaChat) : Evento → Prop
  | .written i _ => ∀ f off rest r, s.llamadas i = .transfiere (.writing f off rest) →
      s.disk f = some r → r.opener = i
  | _ => True

/-- What a call has found there is there, and one that writes stands where the file says. -/
def Conforme (d : Disk ModelFile) (i : ℕ) : Fase → Prop
  | .missing resto faltan => ∀ g, g ∉ resto → g ∉ faltan → (d g).isSome
  | .transfiere q => d.Follows i q
  | _ => True

def Enlazada (s : LaureliaChat) : Prop := ∀ i, Conforme s.disk i (s.llamadas i)

variable {s : LaureliaChat} {i : ℕ}

theorem mem_files (f : ModelFile) : f ∈ files := by
  cases f with
  | ckpt => exact List.mem_cons_self
  | tok => exact List.mem_cons_of_mem _ List.mem_cons_self

theorem conforme_files (d : Disk ModelFile) (i : ℕ) : Conforme d i (.missing files []) :=
  fun g hg => absurd (mem_files g) hg

theorem conforme_trasMissing {d : Disk ModelFile} {resto faltan : List ModelFile}
    (h : ∀ g, g ∉ resto → g ∉ faltan → (d g).isSome) :
    Conforme d i (trasMissing resto faltan) := by
  cases resto with
  | nil =>
    cases faltan with
    | nil => trivial
    | cons f faltan => trivial
  | cons f resto => exact h

theorem conforme_cae (d : Disk ModelFile) (i : ℕ) (p : Fase) : Conforme d i p.cae := by
  cases p with
  | sinLlamar => trivial
  | missing resto faltan => trivial
  | transfiere q => trivial
  | fin ok => trivial

/-- One call moves on, and the others do not see what it does to the disk. -/
theorem Enlazada.mueve (hs : Enlazada s) {d : Disk ModelFile} {p : Fase} (hp : Conforme d i p)
    (hothers : ∀ j p', j ≠ i → Conforme s.disk j p' → Conforme d j p') :
    Enlazada ({ s with disk := d }.setLlamada i p) := by
  intro j
  change Conforme d j (Function.update s.llamadas i p j)
  by_cases hj : j = i
  · rw [hj, Function.update_self]
    exact hp
  · rw [Function.update_of_ne hj]
    exact hothers j _ hj (hs j)

theorem Enlazada.setLlamada (hs : Enlazada s) {p : Fase} (hp : Conforme s.disk i p) :
    Enlazada (s.setLlamada i p) :=
  hs.mueve hp fun _ _ _ h => h

theorem Enlazada.download (hs : Enlazada s) (i : ℕ) : Enlazada (s.download i) := by
  unfold LaureliaChat.download
  split
  · exact hs.setLlamada (conforme_files s.disk i)
  · exact hs

theorem Enlazada.existe (hs : Enlazada s) (i : ℕ) : Enlazada (s.existe i) := by
  unfold LaureliaChat.existe
  split
  · rename_i f resto faltan hi
    have hfound : Conforme s.disk i (.missing (f :: resto) faltan) := hi ▸ hs i
    apply hs.setLlamada
    apply conforme_trasMissing
    intro g hresto hg
    by_cases hf : (s.disk f).isSome = true
    · rw [if_pos hf] at hg
      by_cases heq : g = f
      · rw [heq]
        exact hf
      · exact hfound g (fun hmem => (List.mem_cons.mp hmem).elim heq hresto) hg
    · rw [if_neg hf] at hg
      have hne : g ≠ f := fun heq => hg (heq ▸ List.mem_append_right faltan List.mem_cons_self)
      exact hfound g (fun hmem => (List.mem_cons.mp hmem).elim hne hresto)
        fun hmem => hg (List.mem_append_left _ hmem)
  · exact hs

theorem Enlazada.response (hs : Enlazada s) (i statusCode : ℕ) (body : List UInt8) :
    Enlazada (s.response i statusCode body) := by
  unfold LaureliaChat.response
  split
  · split
    · exact hs.setLlamada trivial
    · exact hs.setLlamada trivial
  · exact hs

theorem Enlazada.opened (hs : Enlazada s) (i : ℕ) : Enlazada (s.opened i) := by
  unfold LaureliaChat.opened
  split
  · refine hs.mueve Disk.follows_openWrite ?_
    intro j p hj hp
    cases p with
    | sinLlamar => trivial
    | missing resto faltan =>
      exact fun g hresto hfaltan => Disk.isSome_openWrite (hp g hresto hfaltan)
    | transfiere q => exact Disk.Follows.openWrite hp hj.symm
    | fin ok => trivial
  · exact hs

theorem Enlazada.written (hs : Enlazada s) (i n : ℕ) : Enlazada (s.written i n) := by
  unfold LaureliaChat.written
  split
  · rename_i f off rest hi
    have hfollows : s.disk.Follows i (.writing f off rest) := by
      have hconforme := hs i
      rw [hi] at hconforme
      exact hconforme
    refine hs.mueve (hfollows.write n) ?_
    intro j p hj hp
    cases p with
    | sinLlamar => trivial
    | missing resto faltan =>
      exact fun g hresto hfaltan => Disk.isSome_write (hp g hresto hfaltan) _
    | transfiere q => exact Disk.Follows.write_of_ne hp hj.symm _
    | fin ok => trivial
  · exact hs

theorem Enlazada.closed (hs : Enlazada s) (i : ℕ) : Enlazada (s.closed i) := by
  unfold LaureliaChat.closed
  split
  · exact hs.setLlamada (conforme_files s.disk i)
  · exact hs

theorem Enlazada.paso (hs : Enlazada s) (e : Evento) : Enlazada (s.paso e) := by
  cases e with
  | download i => exact hs.download i
  | existe i => exact hs.existe i
  | comprueba f => exact hs
  | response i statusCode body => exact hs.response i statusCode body
  | opened i => exact hs.opened i
  | written i n => exact hs.written i n
  | closed i => exact hs.closed i
  | falla i => exact hs.setLlamada (conforme_cae s.disk i _)
  | muere => exact fun i => conforme_cae s.disk i _

/-- Of what happens, only an opening and a write reach the disk. -/
theorem disk_paso {e : Evento} (hopened : ∀ i, e ≠ .opened i) (hwritten : ∀ i n, e ≠ .written i n) :
    (s.paso e).disk = s.disk := by
  cases e with
  | download i =>
    unfold paso download
    dsimp only
    split <;> rfl
  | existe i =>
    unfold paso existe
    dsimp only
    split <;> rfl
  | comprueba f => rfl
  | response i statusCode body =>
    unfold paso response
    dsimp only
    split
    · split <;> rfl
    · rfl
  | opened i => exact absurd rfl (hopened i)
  | written i n => exact absurd rfl (hwritten i n)
  | closed i =>
    unfold paso closed
    dsimp only
    split <;> rfl
  | falla i => rfl
  | muere => rfl

/-- What every opened file has and every write that is made keeps, every file has. -/
theorem forall_disk_paso {P : Received → Prop} (hd : ∀ g r, s.disk g = some r → P r) {e : Evento}
    (hopened : ∀ i body, P (.opened i body))
    (hwritten : ∀ i n f off rest r, e = .written i n →
      s.llamadas i = .transfiere (.writing f off rest) → s.disk f = some r →
      P (r.write i off (rest.take n))) :
    ∀ g r, (s.paso e).disk g = some r → P r := by
  by_cases hopen : ∃ i, e = .opened i
  · obtain ⟨i, rfl⟩ := hopen
    unfold paso LaureliaChat.opened
    dsimp only
    split
    · exact Disk.forall_openWrite hd (hopened i _)
    · exact hd
  · by_cases hwrite : ∃ i n, e = .written i n
    · obtain ⟨i, n, rfl⟩ := hwrite
      unfold paso LaureliaChat.written
      dsimp only
      split
      · rename_i f off rest hi
        exact Disk.forall_write hd fun r hr => hwritten i n f off rest r rfl hi hr
      · exact hd
    · rw [disk_paso (fun i h => hopen ⟨i, h⟩) fun i n h => hwrite ⟨i, n, h⟩]
      exact hd

/-- What a transfer writes is of the body, if the transfer opened the file last. -/
theorem Enlazada.stands (hs : Enlazada s) {f : ModelFile} {off : ℕ} {rest : List UInt8}
    {r : Received} (hi : s.llamadas i = .transfiere (.writing f off rest))
    (hr : s.disk f = some r) (hopener : r.opener = i) :
    off = r.written ∧ rest = r.body.drop r.written := by
  have hfollows := hs i
  rw [hi] at hfollows
  obtain ⟨r', hr', hstands⟩ := hfollows
  have heq : r' = r := Option.some.inj (hr'.symm.trans hr)
  rw [heq] at hstands
  exact hstands hopener

/-- Every file is sound, which a step in turn keeps. -/
def Sanos (s : LaureliaChat) : Prop := ∀ f r, s.disk f = some r → r.Sound

theorem Sanos.paso (hs : Sanos s) (h : Enlazada s) {e : Evento} (he : EnTurno s e) :
    Sanos (s.paso e) := by
  apply forall_disk_paso hs Received.sound_opened
  rintro i n f off rest r rfl hi hr
  refine (hs f r hr).write ?_ fun hopener => (h.stands hi hr hopener).1
  by_cases hopener : r.opener = i
  · obtain ⟨rfl, rfl⟩ := h.stands hi hr hopener
    exact List.take_prefix n _
  · exact he f off rest r hi hr hopener

/-- Every file is what its opener has written, which a step of the opener keeps. -/
def Exactos (s : LaureliaChat) : Prop := ∀ f r, s.disk f = some r → r.Exact

theorem Exactos.paso (hs : Exactos s) (h : Enlazada s) {e : Evento} (he : Propia s e) :
    Exactos (s.paso e) := by
  apply forall_disk_paso hs Received.exact_opened
  rintro i n f off rest r rfl hi hr
  have hopener := he f off rest r hi hr
  obtain ⟨rfl, rfl⟩ := h.stands hi hr hopener
  exact (hs f r hr).write hopener n

theorem Sanos.complete (hs : Sanos s) {f : ModelFile} (h : ¬ s.disk.Lacks f) (r : Received)
    (hr : s.disk f = some r) : r.Complete :=
  (hs f r hr).complete fun hlacks => h ⟨r, hr, hlacks⟩

end LaureliaChat

inductive V1File where
  | weights | vocab
  deriving DecidableEq

/-- `installed`: `_weightsV1` and `_vocabV1` are set. While a fetch is under way `_busy` is, so
there is one at a time and they need no numbers. -/
structure NeedleService where
  disk : Disk V1File
  installed : V1File → Bool
  fetch : Option (Phase V1File)

namespace NeedleService

inductive Evento where
  | downloadModelV1
  | refresh
  | response (statusCode : ℕ) (body : List UInt8)
  | opened
  /-- The next `n` bytes of the body are written. -/
  | written (n : ℕ)
  | closed
  /-- What the download awaits throws. -/
  | falla
  /-- The process dies; what is on the disk stays. -/
  | muere

/-- It throws while another download is under way. -/
def downloadModelV1 (s : NeedleService) : NeedleService :=
  match s.fetch with
  | none => { s with fetch := some (.requested .weights) }
  | some _ => s

def refresh (s : NeedleService) : NeedleService :=
  { s with installed := fun f => (s.disk f).isSome }

def response (s : NeedleService) (statusCode : ℕ) (body : List UInt8) : NeedleService :=
  match s.fetch with
  | some (.requested f) =>
    if statusCode ≠ 200 then { s with fetch := none }
    else { s with fetch := some (.answered f body) }
  | _ => s

def opened (s : NeedleService) : NeedleService :=
  match s.fetch with
  | some (.answered f body) =>
    { s with disk := s.disk.openWrite 0 f body, fetch := some (.writing f 0 body) }
  | _ => s

def written (s : NeedleService) (n : ℕ) : NeedleService :=
  match s.fetch with
  | some (.writing f off rest) =>
    { s with
      disk := s.disk.write 0 f off (rest.take n)
      fetch := some (.writing f (off + (rest.take n).length) (rest.drop n)) }
  | _ => s

def closed (s : NeedleService) : NeedleService :=
  match s.fetch with
  | some (.writing .weights _ []) => { s with fetch := some (.requested .vocab) }
  | some (.writing .vocab _ []) => { s with installed := fun _ => true, fetch := none }
  | _ => s

def paso (s : NeedleService) : Evento → NeedleService
  | .downloadModelV1 => s.downloadModelV1
  | .refresh => s.refresh
  | .response statusCode body => s.response statusCode body
  | .opened => s.opened
  | .written n => s.written n
  | .closed => s.closed
  | .falla => { s with fetch := none }
  | .muere => { s with fetch := none, installed := fun _ => false }

def inicial : NeedleService where
  disk := Disk.empty
  installed := fun _ => false
  fetch := none

/-- What is reported as installed is complete. -/
def Fiable (s : NeedleService) : Prop :=
  ∀ f, s.installed f = true → ∃ r, s.disk f = some r ∧ r.Complete

/-- A `refresh` comes when no fetch, under way or interrupted, has a part of a body left, and a
file that is reported as installed is not opened again, but for an empty body. -/
def EnTurno (s : NeedleService) : Evento → Prop
  | .refresh => ∀ f, ¬ s.disk.Lacks f
  | .opened => ∀ f body, s.fetch = some (.answered f body) → s.installed f = true → body = []
  | _ => True

/-- Every file is what was written of its body, a fetch that writes stands where its file says,
and the weights are complete while the vocabulary is fetched. -/
structure Consistente (s : NeedleService) : Prop where
  exacto : ∀ f r, s.disk f = some r → r.Exact ∧ r.opener = 0
  sigue : ∀ q, s.fetch = some q → s.disk.Follows 0 q
  weights : ∀ q, s.fetch = some q → q.file = .vocab →
    ∃ r, s.disk .weights = some r ∧ r.Complete

variable {s : NeedleService}

theorem Consistente.complete_iff (hs : Consistente s) (f : V1File) :
    (∀ r, s.disk f = some r → r.Complete) ↔ ¬ s.disk.Lacks f := by
  constructor
  · rintro h ⟨r, hr, hlacks⟩
    exact (hs.exacto f r hr).1.complete_iff.mp (h r hr) hlacks
  · intro h r hr
    exact (hs.exacto f r hr).1.complete_iff.mpr fun hlacks => h ⟨r, hr, hlacks⟩

/-- The file that a fetch writes to, and where the fetch stands in it. -/
theorem Consistente.stands (hs : Consistente s) {f : V1File} {off : ℕ} {rest : List UInt8}
    (hfetch : s.fetch = some (.writing f off rest)) :
    ∃ r, s.disk f = some r ∧ r.Exact ∧ r.opener = 0 ∧ off = r.written ∧
      rest = r.body.drop r.written := by
  obtain ⟨r, hr, hstands⟩ := hs.sigue _ hfetch
  obtain ⟨hexacto, hopener⟩ := hs.exacto f r hr
  exact ⟨r, hr, hexacto, hopener, hstands hopener⟩

/-- Of a body that is written nothing is left. -/
theorem Consistente.complete_of_writing (hs : Consistente s) {f : V1File} {off : ℕ}
    (hfetch : s.fetch = some (.writing f off [])) : ∃ r, s.disk f = some r ∧ r.Complete := by
  obtain ⟨r, hr, hexacto, -, -, hrest⟩ := hs.stands hfetch
  refine ⟨r, hr, hexacto.complete_iff.mpr ?_⟩
  exact Nat.not_lt.mpr (List.drop_eq_nil_iff.mp hrest.symm)

theorem Consistente.opened (hs : Consistente s) : Consistente s.opened := by
  unfold NeedleService.opened
  split
  · rename_i f body hfetch
    refine ⟨?_, ?_, ?_⟩
    · apply Disk.forall_openWrite hs.exacto
      exact ⟨Received.exact_opened 0 body, rfl⟩
    · intro q hq
      cases hq
      exact Disk.follows_openWrite
    · intro q hq hfile
      cases hq
      have hne : V1File.weights ≠ f := fun heq => by cases heq.trans hfile
      obtain ⟨r, hr, hcomplete⟩ := hs.weights _ hfetch hfile
      exact ⟨r, (Disk.openWrite_of_ne hne).trans hr, hcomplete⟩
  · exact hs

theorem Consistente.written (hs : Consistente s) (n : ℕ) : Consistente (s.written n) := by
  unfold NeedleService.written
  split
  · rename_i f off rest hfetch
    obtain ⟨r, hr, hexacto, hopener, rfl, rfl⟩ := hs.stands hfetch
    refine ⟨?_, ?_, ?_⟩
    · apply Disk.forall_write hs.exacto
      intro r' hr'
      have heq : r' = r := Option.some.inj (hr'.symm.trans hr)
      rw [heq]
      exact ⟨hexacto.write hopener n, hopener⟩
    · intro q hq
      cases hq
      exact Disk.Follows.write (hs.sigue _ hfetch) n
    · intro q hq hfile
      cases hq
      have hne : V1File.weights ≠ f := fun heq => by cases heq.trans hfile
      obtain ⟨r', hr', hcomplete⟩ := hs.weights _ hfetch hfile
      exact ⟨r', (Disk.write_of_ne hne _).trans hr', hcomplete⟩
  · exact hs

/-- The disk stays as it is while the fetch moves to where it does not write. -/
theorem Consistente.mueve (hs : Consistente s) {s' : NeedleService} (hdisk : s'.disk = s.disk)
    (hsigue : ∀ q, s'.fetch = some q → s.disk.Follows 0 q)
    (hweights : ∀ q, s'.fetch = some q → q.file = .vocab →
      ∃ r, s.disk .weights = some r ∧ r.Complete) : Consistente s' where
  exacto := hdisk ▸ hs.exacto
  sigue := hdisk ▸ hsigue
  weights := hdisk ▸ hweights

theorem Consistente.downloadModelV1 (hs : Consistente s) : Consistente s.downloadModelV1 := by
  unfold NeedleService.downloadModelV1
  split
  · refine hs.mueve rfl ?_ ?_
    · intro q hq
      cases hq
      trivial
    · intro q hq hfile
      cases hq
      cases hfile
  · exact hs

theorem Consistente.response (hs : Consistente s) (statusCode : ℕ) (body : List UInt8) :
    Consistente (s.response statusCode body) := by
  unfold NeedleService.response
  split
  · rename_i f hfetch
    split
    · exact hs.mueve rfl nofun nofun
    · refine hs.mueve rfl ?_ ?_
      · intro q hq
        cases hq
        trivial
      · intro q hq hfile
        cases hq
        exact hs.weights _ hfetch hfile
  · exact hs

theorem Consistente.closed (hs : Consistente s) : Consistente s.closed := by
  unfold NeedleService.closed
  split
  · rename_i hfetch
    refine hs.mueve rfl ?_ fun _ _ _ => hs.complete_of_writing hfetch
    intro q hq
    cases hq
    trivial
  · exact hs.mueve rfl nofun nofun
  · exact hs

theorem paso_consistente {e : Evento} (hs : Consistente s) : Consistente (s.paso e) := by
  cases e with
  | downloadModelV1 => exact hs.downloadModelV1
  | refresh => exact ⟨hs.exacto, hs.sigue, hs.weights⟩
  | response statusCode body => exact hs.response statusCode body
  | opened => exact hs.opened
  | written n => exact hs.written n
  | closed => exact hs.closed
  | falla => exact hs.mueve rfl nofun nofun
  | muere => exact hs.mueve rfl nofun nofun

theorem inicial_consistente : Consistente inicial := ⟨nofun, nofun, nofun⟩

theorem Fiable.downloadModelV1 (h : Fiable s) : Fiable s.downloadModelV1 := by
  unfold NeedleService.downloadModelV1
  split
  · exact h
  · exact h

theorem Fiable.response (h : Fiable s) (statusCode : ℕ) (body : List UInt8) :
    Fiable (s.response statusCode body) := by
  unfold NeedleService.response
  split
  · split
    · exact h
    · exact h
  · exact h

end NeedleService

end Nerea.Services
