import Nerea.Laurelia.Generation
import Nerea.Shared.Run

/-!
# The model and the tokenizer that are loaded

The end token is looked up once, when a model is loaded with its tokenizer, and kept beside
both. Loading a tokenizer alone leaves it as it was.
-/

set_option autoImplicit false

namespace Nerea.Laurelia

universe u
variable {R : Type u} [Field R] {E : Elementary R} {c : Config}

/-- What the `tokenizers` crate offers of a tokenizer file. -/
structure LaureliaTokenizer where
  token_to_id : String → Option ℕ
  encode : String → Option (List ℕ)
  decode : List ℕ → Option String

namespace LaureliaTokenizer

def candidates : List String :=
  ["<|endoftext|>", "<eos>", "</s>", "<|eot_id|>", "<|endoftext|", "[EOS]", "eos", "<EOS>",
    "<|eos|>", "Ċ<|endoftext|>"]

/-- Token EOS del modelo, buscando los nombres típicos del tokenizer. -/
def eosTokenId (t : LaureliaTokenizer) : Option ℕ := candidates.findSome? t.token_to_id

end LaureliaTokenizer

/-- The files at the time of a call. -/
structure Files (E : Elementary R) (c : Config) where
  exists_ : String → Bool
  load_pth : String → Option (LLM E c)
  load : String → Option (LLM E c)
  from_file : String → Option LaureliaTokenizer

structure LaureliaState (E : Elementary R) (c : Config) where
  model : Option (LLM E c)
  tokenizer : Option LaureliaTokenizer
  eos_token_id : Option ℕ

namespace LaureliaState

def inicial : LaureliaState E c := ⟨none, none, none⟩

/-- `.pt` and `.pth` are read by their own loader. -/
def loadWeights (files : Files E c) (ckpt_path : String) : Option (LLM E c) :=
  if ckpt_path.endsWith ".pt" || ckpt_path.endsWith ".pth" then files.load_pth ckpt_path
  else files.load ckpt_path

def laureliaLoadModel (st : LaureliaState E c) (files : Files E c)
    (ckpt_path tokenizer_path : String) : LaureliaState E c × Bool :=
  if !files.exists_ ckpt_path then (st, false)
  else if !files.exists_ tokenizer_path then (st, false)
  else
    match loadWeights files ckpt_path with
    | none => (st, false)
    | some model =>
      match files.from_file tokenizer_path with
      | none => (st, false)
      | some tokenizer => (⟨some model, some tokenizer, tokenizer.eosTokenId⟩, true)

/-- Carga solo el tokenizer. -/
def laureliaLoadTokenizer (st : LaureliaState E c) (files : Files E c)
    (tokenizer_path : String) : LaureliaState E c × Bool :=
  match files.from_file tokenizer_path with
  | none => (st, false)
  | some tokenizer => ({ st with tokenizer := some tokenizer }, true)

def laureliaUnloadModel (st : LaureliaState E c) : LaureliaState E c :=
  { st with model := none, tokenizer := none }

/-- The text of the ids that `model` generates after the prompt's, both of one tokenizer. -/
def generateText [LinearOrder R] (model : LLM E c) (tokenizer : LaureliaTokenizer)
    (eos_token_id : Option ℕ) (prompt : String) (max_new_tokens : ℤ) (temperature : R) (top_k : ℤ)
    (top_p repetition_penalty : R) (draws : ℕ → R) : String :=
  match tokenizer.encode prompt with
  | none => ""
  | some ids =>
    if ids.isEmpty then ""
    else
      match model.generate ids (max max_new_tokens 1).toNat temperature (max top_k 1).toNat top_p
        repetition_penalty eos_token_id draws with
      | .error _ => ""
      | .ok (ids_out, _) => (tokenizer.decode ids_out).getD ""

def laureliaGenerate [LinearOrder R] (st : LaureliaState E c) (prompt : String)
    (max_new_tokens : ℤ) (temperature : R) (top_k : ℤ) (top_p repetition_penalty : R)
    (draws : ℕ → R) : String :=
  match st.model with
  | none => ""
  | some model =>
    match st.tokenizer with
    | none => ""
    | some tokenizer =>
      generateText model tokenizer st.eos_token_id prompt max_new_tokens temperature top_k top_p
        repetition_penalty draws

inductive Suceso (E : Elementary R) (c : Config) where
  | loadModel (files : Files E c) (ckpt_path tokenizer_path : String)
  | loadTokenizer (files : Files E c) (tokenizer_path : String)
  | unloadModel

def paso (st : LaureliaState E c) : Suceso E c → LaureliaState E c
  | .loadModel files ckpt_path tokenizer_path =>
    (st.laureliaLoadModel files ckpt_path tokenizer_path).1
  | .loadTokenizer files tokenizer_path => (st.laureliaLoadTokenizer files tokenizer_path).1
  | .unloadModel => st.laureliaUnloadModel

/-- With both loaded, the id that is passed on is the tokenizer's. -/
def EosDelTokenizer (st : LaureliaState E c) : Prop :=
  ∀ model tokenizer, st.model = some model → st.tokenizer = some tokenizer →
    st.eos_token_id = tokenizer.eosTokenId

/-- While a model is loaded, a tokenizer is replaced only by one with the same end token. -/
def MismoFin (st : LaureliaState E c) : Suceso E c → Prop
  | .loadTokenizer files tokenizer_path =>
    ∀ model tokenizer tokenizer', st.model = some model → st.tokenizer = some tokenizer →
      files.from_file tokenizer_path = some tokenizer' →
      tokenizer'.eosTokenId = tokenizer.eosTokenId
  | _ => True

/-- A model never comes without a tokenizer. -/
def Pareja (st : LaureliaState E c) : Prop := st.model.isSome → st.tokenizer.isSome

variable {st : LaureliaState E c}

/-- What a call of `laurelia_load_model` can do. -/
theorem laureliaLoadModel_cases (st : LaureliaState E c) (files : Files E c)
    (ckpt_path tokenizer_path : String) :
    st.laureliaLoadModel files ckpt_path tokenizer_path = (st, false) ∨
      ∃ model tokenizer, st.laureliaLoadModel files ckpt_path tokenizer_path =
        (⟨some model, some tokenizer, tokenizer.eosTokenId⟩, true) := by
  unfold laureliaLoadModel
  split
  · exact Or.inl rfl
  split
  · exact Or.inl rfl
  cases loadWeights files ckpt_path with
  | none => exact Or.inl rfl
  | some model =>
    cases files.from_file tokenizer_path with
    | none => exact Or.inl rfl
    | some tokenizer => exact Or.inr ⟨model, tokenizer, rfl⟩

/-- What a call of `laurelia_load_tokenizer` can do. -/
theorem laureliaLoadTokenizer_eq (st : LaureliaState E c) (files : Files E c)
    (tokenizer_path : String) :
    (st.laureliaLoadTokenizer files tokenizer_path).1 =
      match files.from_file tokenizer_path with
      | none => st
      | some tokenizer => { st with tokenizer := some tokenizer } := by
  unfold laureliaLoadTokenizer
  split <;> rfl

theorem Pareja.paso (hst : Pareja st) (e : Suceso E c) : Pareja (st.paso e) := by
  cases e with
  | loadModel files ckpt_path tokenizer_path =>
    change Pareja (st.laureliaLoadModel files ckpt_path tokenizer_path).1
    rcases laureliaLoadModel_cases st files ckpt_path tokenizer_path with h | ⟨_, _, h⟩
    · rw [h]
      exact hst
    · rw [h]
      exact fun _ => rfl
  | loadTokenizer files tokenizer_path =>
    change Pareja (st.laureliaLoadTokenizer files tokenizer_path).1
    rw [laureliaLoadTokenizer_eq]
    cases files.from_file tokenizer_path with
    | none => exact hst
    | some tokenizer => exact fun _ => rfl
  | unloadModel => exact fun h => absurd h (by simp [LaureliaState.paso, laureliaUnloadModel])

theorem eosDelTokenizer_paso (hst : Pareja st) (h : EosDelTokenizer st) (e : Suceso E c) :
    EosDelTokenizer (st.paso e) ↔ MismoFin st e := by
  cases e with
  | loadModel files ckpt_path tokenizer_path =>
    refine iff_of_true ?_ trivial
    change EosDelTokenizer (st.laureliaLoadModel files ckpt_path tokenizer_path).1
    rcases laureliaLoadModel_cases st files ckpt_path tokenizer_path with hload | ⟨_, t, hload⟩
    · rw [hload]
      exact h
    · rw [hload]
      intro model tokenizer _ htok
      rw [← Option.some.inj htok]
  | loadTokenizer files tokenizer_path =>
    change EosDelTokenizer (st.laureliaLoadTokenizer files tokenizer_path).1 ↔ _
    rw [laureliaLoadTokenizer_eq]
    cases hfile : files.from_file tokenizer_path with
    | none =>
      refine iff_of_true h fun model tokenizer tokenizer' _ _ htok => ?_
      rw [hfile] at htok
      cases htok
    | some t =>
      constructor
      · intro hnew model tokenizer tokenizer' hmodel htok htok'
        rw [hfile] at htok'
        rw [← Option.some.inj htok', ← h model tokenizer hmodel htok]
        exact (hnew model t hmodel rfl).symm
      · intro hsame model tokenizer hmodel htok
        have hmodel : st.model = some model := hmodel
        obtain ⟨old, hold⟩ := Option.isSome_iff_exists.mp (hst (by rw [hmodel]; rfl))
        rw [← Option.some.inj htok, hsame model old t hmodel hold hfile]
        exact h model old hmodel hold
  | unloadModel =>
    refine iff_of_true ?_ trivial
    intro model tokenizer hmodel
    cases hmodel

/-- With the ids in agreement, the text is generated up to the tokenizer's own end token. -/
theorem laureliaGenerate_eq [LinearOrder R] (h : EosDelTokenizer st) {model : LLM E c}
    {tokenizer : LaureliaTokenizer} (hmodel : st.model = some model)
    (htok : st.tokenizer = some tokenizer) :
    st.laureliaGenerate = generateText model tokenizer tokenizer.eosTokenId := by
  unfold laureliaGenerate
  rw [hmodel, htok, h model tokenizer hmodel htok]

/-- In every run the end token is the tokenizer's exactly when no tokenizer with another one
is loaded under a model. -/
theorem eos_of_tokenizer_iff (es : List (Suceso E c)) :
    Run.Always paso EosDelTokenizer inicial es ↔ Run.AllSteps paso MismoFin inicial es := by
  apply Run.always_iff_of_invariant (I := Pareja)
  · exact fun s e hs _ => hs.paso e
  · exact fun s e hs h => eosDelTokenizer_paso hs h e
  · exact fun h => absurd h (by simp [inicial])
  · intro model tokenizer hmodel
    cases hmodel

/-- A tokenizer whose only known token is its end token. -/
def conFin (fin : ℕ) : LaureliaTokenizer where
  token_to_id name := if name = "<eos>" then some fin else none
  encode _ := none
  decode _ := none

noncomputable def conAveraging (fin : ℕ) : Files realElementary averagingConfig where
  exists_ _ := true
  load_pth _ := some averaging
  load _ := some averaging
  from_file _ := some (conFin fin)

/-- A model loaded with one tokenizer, and then another tokenizer. -/
theorem reloaded_tokenizer : ¬ ∀ es : List (Suceso realElementary averagingConfig),
    Run.Always paso EosDelTokenizer inicial es := by
  intro h
  have hlast := (h [.loadModel (conAveraging 0) "ckpt" "tok",
    .loadTokenizer (conAveraging 1) "tok"]).last
  have hrun : Run.run paso inicial [.loadModel (conAveraging 0) "ckpt" "tok",
      .loadTokenizer (conAveraging 1) "tok"] =
      ⟨some averaging, some (conFin 1), (conFin 0).eosTokenId⟩ := by
    simp [Run.run, paso, laureliaLoadModel, laureliaLoadTokenizer, loadWeights, conAveraging]
  rw [hrun] at hlast
  have hstale := hlast averaging (conFin 1) rfl rfl
  simp [LaureliaTokenizer.eosTokenId, LaureliaTokenizer.candidates, conFin] at hstale

end LaureliaState
end Nerea.Laurelia
