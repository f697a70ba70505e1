import Mathlib.Data.Int.Notation
import Mathlib.Data.List.InsertIdx
import Mathlib.Logic.Function.Basic
import Nerea.Shared.Cursor
import Nerea.Shared.Run

/-!
# The tabs of the browser

The active tab is an index into the list. `closeAt` only keeps it in range, so a tab that is
closed before it moves it to the next one, if there is one.
-/

set_option autoImplicit false

namespace Nerea.Browser

structure BrowserTab where
  id : ℕ
  title : String
  url : String

def BrowserTab.nueva (id : ℕ) : BrowserTab := ⟨id, "Nueva pestaña", "https://duckduckgo.com/"⟩

/-- The controllers are numbered as they are created. -/
structure BrowserTabs where
  tabs : List BrowserTab
  controllers : ℕ → Option ℕ
  activeIndex : ℤ
  idSeq : ℕ

namespace BrowserTabs

def maxTabs : ℕ := 8

/-- `tabs.add` of a fresh tab under the next id. -/
def agrega (s : BrowserTabs) : BrowserTabs :=
  { s with tabs := s.tabs ++ [.nueva s.idSeq], idSeq := s.idSeq + 1 }

def inicial : BrowserTabs := agrega ⟨[], fun _ => none, 0, 0⟩

/-- The getter adds a tab when there is none. -/
def active (s : BrowserTabs) : BrowserTabs × Option BrowserTab :=
  let s := if s.tabs.isEmpty then s.agrega else s
  let i := max 0 (min s.activeIndex (s.tabs.length - 1))
  (s, s.tabs[i.toNat]?)

def registerController (s : BrowserTabs) (tabId c : ℕ) : BrowserTabs :=
  { s with controllers := Function.update s.controllers tabId (some c) }

def forgetController (s : BrowserTabs) (tabId : ℕ) : BrowserTabs :=
  { s with controllers := Function.update s.controllers tabId none }

def activate (s : BrowserTabs) (index : ℤ) : BrowserTabs :=
  if index < 0 ∨ s.tabs.length ≤ index then s else { s with activeIndex := index }

def add (s : BrowserTabs) : BrowserTabs :=
  if maxTabs ≤ s.tabs.length then s
  else { s.agrega with activeIndex := s.agrega.tabs.length - 1 }

/-- Si era la última, crea una fresca para que siempre haya una. -/
def nuncaVacia (s : BrowserTabs) : BrowserTabs := if s.tabs.isEmpty then s.agrega else s

/-- What `closeAt` does to the index at its end. -/
def enRango (s : BrowserTabs) : BrowserTabs :=
  let s := if s.tabs.length ≤ s.activeIndex then { s with activeIndex := s.tabs.length - 1 } else s
  if s.activeIndex < 0 then { s with activeIndex := 0 } else s

/-- Cierra solo la pestaña en `index` (sin cascada). -/
def closeAt (s : BrowserTabs) (index : ℤ) : BrowserTabs :=
  if index < 0 ∨ s.tabs.length ≤ index then s
  else
    match s.tabs[index.toNat]? with
    | none => s
    | some t =>
      let s := s.forgetController t.id
      let s := { s with tabs := s.tabs.eraseIdx index.toNat }
      s.nuncaVacia.enRango

/-- The first tab with the id, if there is one. -/
def modifica (s : BrowserTabs) (tabId : ℕ) (f : BrowserTab → BrowserTab) : BrowserTabs :=
  { s with tabs := s.tabs.modify (s.tabs.findIdx (fun t => t.id = tabId)) f }

def rename (s : BrowserTabs) (tabId : ℕ) (title : String) : BrowserTabs :=
  s.modifica tabId fun t => { t with title := if title.isEmpty then "Pestaña" else title }

def updateUrl (s : BrowserTabs) (tabId : ℕ) (url : String) : BrowserTabs :=
  s.modifica tabId fun t => { t with url := url }

inductive Evento where
  | activate (index : ℤ)
  | add
  | closeAt (index : ℤ)
  | rename (tabId : ℕ) (title : String)
  | updateUrl (tabId : ℕ) (url : String)
  | registerController (tabId c : ℕ)
  | forgetController (tabId : ℕ)

def paso (s : BrowserTabs) : Evento → BrowserTabs
  | .activate index => s.activate index
  | .add => s.add
  | .closeAt index => s.closeAt index
  | .rename tabId title => s.rename tabId title
  | .updateUrl tabId url => s.updateUrl tabId url
  | .registerController tabId c => s.registerController tabId c
  | .forgetController tabId => s.forgetController tabId

def ids (s : BrowserTabs) : List ℕ := s.tabs.map (·.id)

def activeId (s : BrowserTabs) : Option ℕ := s.active.2.map (·.id)

/-- No id twice, and none that is still to be given. -/
structure Numeradas (s : BrowserTabs) : Prop where
  distintas : s.ids.Nodup
  frescas : ∀ id ∈ s.ids, id < s.idSeq

structure Correcto (s : BrowserTabs) : Prop extends Numeradas s where
  alguna : s.tabs ≠ []
  rango : 0 ≤ s.activeIndex ∧ s.activeIndex < s.tabs.length

/-- A close leaves the other tabs as they are; the last one makes place for a fresh one. -/
def QuitaUna (s : BrowserTabs) : Evento → Prop
  | .closeAt i => 0 ≤ i → i < s.tabs.length → (s.closeAt i).tabs =
      if s.tabs.length = 1 then [.nueva s.idSeq] else s.tabs.eraseIdx i.toNat
  | _ => True

def MantieneActiva (s : BrowserTabs) : Evento → Prop
  | .closeAt i => i ≠ s.activeIndex → (s.closeAt i).activeId = s.activeId
  | _ => True

/-- What is closed before the active tab is closed when that is the last one. -/
def ActivaAlFinal (s : BrowserTabs) : Evento → Prop
  | .closeAt i => 0 ≤ i → i < s.activeIndex → s.activeIndex + 1 = s.tabs.length
  | _ => True

variable {s : BrowserTabs} {i : ℤ}

theorem ids_agrega : s.agrega.ids = s.ids ++ [s.idSeq] := List.map_append

theorem ids_modifica {f : BrowserTab → BrowserTab} (hf : ∀ t, (f t).id = t.id) (tabId : ℕ) :
    (s.modifica tabId f).ids = s.ids := by
  apply List.ext_getElem?
  intro k
  simp only [ids, modifica, List.getElem?_map, List.getElem?_modify]
  cases s.tabs[k]? with
  | none => rfl
  | some t =>
    simp only [Option.map_eq_map, Option.map_some]
    split
    · rw [hf]
    · rfl

theorem ids_rename (tabId : ℕ) (title : String) : (s.rename tabId title).ids = s.ids := by
  apply ids_modifica
  exact fun t => rfl

theorem ids_updateUrl (tabId : ℕ) (url : String) : (s.updateUrl tabId url).ids = s.ids := by
  apply ids_modifica
  exact fun t => rfl

theorem closeAt_of_not (h : i < 0 ∨ s.tabs.length ≤ i) : s.closeAt i = s := if_pos h

/-- What is left when a tab is gone. -/
theorem closeAt_eq (h : 0 ≤ i ∧ i < s.tabs.length) : ∃ resto : BrowserTabs,
    resto.tabs = s.tabs.eraseIdx i.toNat ∧ resto.activeIndex = s.activeIndex ∧
      resto.idSeq = s.idSeq ∧ s.closeAt i = resto.nuncaVacia.enRango := by
  have hlt : i.toNat < s.tabs.length := by omega
  rw [closeAt, if_neg (by omega), List.getElem?_eq_getElem hlt]
  exact ⟨{ s.forgetController s.tabs[i.toNat].id with tabs := s.tabs.eraseIdx i.toNat },
    rfl, rfl, rfl, rfl⟩

theorem nuncaVacia_eq : s.nuncaVacia =
    { s with
      tabs := if s.tabs = [] then [.nueva s.idSeq] else s.tabs
      idSeq := if s.tabs = [] then s.idSeq + 1 else s.idSeq } := by
  cases s with
  | mk tabs controllers activeIndex idSeq =>
    cases tabs with
    | nil => rfl
    | cons t ts => rfl

theorem enRango_eq (h : 0 ≤ s.activeIndex) (htabs : s.tabs ≠ []) : s.enRango =
    { s with activeIndex := Cursor.clamp s.tabs.length s.activeIndex.toNat } := by
  have hpos := List.length_pos_iff.mpr htabs
  unfold enRango Cursor.clamp
  by_cases hle : (s.tabs.length : ℤ) ≤ s.activeIndex
  · have hneg : ¬ (s.tabs.length : ℤ) - 1 < 0 := by omega
    have hclamp : s.tabs.length ≤ s.activeIndex.toNat := by omega
    simp only [if_pos hle, if_neg hneg, if_pos hclamp]
    congr 1
    omega
  · have hclamp : ¬ s.tabs.length ≤ s.activeIndex.toNat := by omega
    simp only [if_neg hle, if_neg (Int.not_lt.mpr h), if_neg hclamp, Int.toNat_of_nonneg h]

theorem enRango_tabs : s.enRango.tabs = s.tabs := by
  unfold enRango
  dsimp only
  split <;> split <;> rfl

theorem enRango_idSeq : s.enRango.idSeq = s.idSeq := by
  unfold enRango
  dsimp only
  split <;> split <;> rfl

theorem eraseIdx_eq_nil (h : 0 ≤ i ∧ i < s.tabs.length) :
    s.tabs.eraseIdx i.toNat = [] ↔ s.tabs.length = 1 := by
  rw [← List.length_eq_zero_iff, List.length_eraseIdx_of_lt (by omega)]
  omega

theorem closeAt_tabs (h : 0 ≤ i ∧ i < s.tabs.length) : (s.closeAt i).tabs =
    if s.tabs.length = 1 then [.nueva s.idSeq] else s.tabs.eraseIdx i.toNat := by
  obtain ⟨resto, htabs, -, hseq, hclose⟩ := closeAt_eq h
  rw [hclose, enRango_tabs, nuncaVacia_eq]
  simp only [htabs, hseq, eraseIdx_eq_nil h]

theorem closeAt_idSeq (h : 0 ≤ i ∧ i < s.tabs.length) : (s.closeAt i).idSeq =
    if s.tabs.length = 1 then s.idSeq + 1 else s.idSeq := by
  obtain ⟨resto, htabs, -, hseq, hclose⟩ := closeAt_eq h
  rw [hclose, enRango_idSeq, nuncaVacia_eq]
  simp only [htabs, hseq, eraseIdx_eq_nil h]

theorem closeAt_tabs_ne_nil (h : 0 ≤ i ∧ i < s.tabs.length) : (s.closeAt i).tabs ≠ [] := by
  rw [closeAt_tabs h]
  split
  · exact List.cons_ne_nil _ _
  · rename_i hlen
    rwa [Ne, eraseIdx_eq_nil h]

theorem closeAt_activeIndex (h : 0 ≤ i ∧ i < s.tabs.length) (hactive : 0 ≤ s.activeIndex) :
    (s.closeAt i).activeIndex =
      Cursor.clamp (s.closeAt i).tabs.length s.activeIndex.toNat := by
  have hne := closeAt_tabs_ne_nil h
  obtain ⟨resto, -, hindex, -, hclose⟩ := closeAt_eq h
  have hkept : resto.nuncaVacia.activeIndex = s.activeIndex := by
    rw [nuncaVacia_eq]
    exact hindex
  rw [hclose, enRango_tabs] at hne ⊢
  rw [enRango_eq (hkept ▸ hactive) hne, hkept]

/-- Without a tab more or less, and the index as it was. -/
theorem Correcto.congr (hs : Correcto s) {s' : BrowserTabs} (hids : s'.ids = s.ids)
    (hactive : s'.activeIndex = s.activeIndex) (hseq : s'.idSeq = s.idSeq) : Correcto s' := by
  have hlen : s'.tabs.length = s.tabs.length := by
    have h := congrArg List.length hids
    rwa [ids, ids, List.length_map, List.length_map] at h
  refine ⟨⟨hids ▸ hs.distintas, hids ▸ hseq ▸ hs.frescas⟩, ?_, ?_⟩
  · rw [← List.length_pos_iff, hlen, List.length_pos_iff]
    exact hs.alguna
  · rw [hactive, hlen]
    exact hs.rango

theorem Numeradas.agrega (hs : Numeradas s) : Numeradas s.agrega where
  distintas := by
    rw [ids_agrega, List.nodup_append]
    refine ⟨hs.distintas, List.nodup_singleton _, fun id hid id' hid' => ?_⟩
    rw [List.mem_singleton.mp hid']
    exact Nat.ne_of_lt (hs.frescas id hid)
  frescas := by
    intro id hid
    rw [ids_agrega, List.mem_append, List.mem_singleton] at hid
    change id < s.idSeq + 1
    rcases hid with hid | hid
    · exact Nat.lt_succ_of_lt (hs.frescas id hid)
    · omega

theorem ids_closeAt (h : 0 ≤ i ∧ i < s.tabs.length) : (s.closeAt i).ids =
    if s.tabs.length = 1 then [s.idSeq] else s.ids.eraseIdx i.toNat := by
  rw [ids, ids, closeAt_tabs h, List.eraseIdx_map]
  split <;> rfl

theorem Numeradas.closeAt (hs : Numeradas s) (h : 0 ≤ i ∧ i < s.tabs.length) :
    Numeradas (s.closeAt i) := by
  have hids := ids_closeAt h
  have hseq := closeAt_idSeq h
  by_cases hlen : s.tabs.length = 1
  · rw [if_pos hlen] at hids hseq
    refine ⟨hids ▸ List.nodup_singleton _, fun id hid => ?_⟩
    rw [hids, List.mem_singleton] at hid
    rw [hseq, hid]
    exact Nat.lt_succ_self _
  · rw [if_neg hlen] at hids hseq
    have hsub : (s.closeAt i).ids.Sublist s.ids := hids ▸ List.eraseIdx_sublist _ _
    refine ⟨hsub.nodup hs.distintas, fun id hid => ?_⟩
    rw [hseq]
    exact hs.frescas id (hsub.subset hid)

theorem Correcto.closeAt (hs : Correcto s) (i : ℤ) : Correcto (s.closeAt i) := by
  by_cases h : 0 ≤ i ∧ i < s.tabs.length
  · refine ⟨hs.toNumeradas.closeAt h, closeAt_tabs_ne_nil h, ?_⟩
    have hpos := List.length_pos_iff.mpr (closeAt_tabs_ne_nil h)
    have hlt := Cursor.clamp_lt hpos s.activeIndex.toNat
    rw [closeAt_activeIndex h hs.rango.1]
    omega
  · rw [closeAt_of_not (by omega)]
    exact hs

theorem Correcto.activate (hs : Correcto s) (i : ℤ) : Correcto (s.activate i) := by
  unfold BrowserTabs.activate
  split
  · exact hs
  · refine ⟨⟨hs.distintas, hs.frescas⟩, hs.alguna, ?_⟩
    dsimp only
    omega

theorem Correcto.add (hs : Correcto s) : Correcto s.add := by
  unfold BrowserTabs.add
  split
  · exact hs
  · have hnum := hs.toNumeradas.agrega
    have hlen : s.agrega.tabs.length = s.tabs.length + 1 := List.length_append
    refine ⟨⟨hnum.distintas, hnum.frescas⟩, List.concat_ne_nil _ _, ?_⟩
    dsimp only
    omega

theorem Correcto.paso (hs : Correcto s) (e : Evento) : Correcto (s.paso e) := by
  cases e with
  | activate index => exact hs.activate index
  | add => exact hs.add
  | closeAt index => exact hs.closeAt index
  | rename tabId title => exact hs.congr (ids_rename tabId title) rfl rfl
  | updateUrl tabId url => exact hs.congr (ids_updateUrl tabId url) rfl rfl
  | registerController tabId c => exact hs.congr rfl rfl rfl
  | forgetController tabId => exact hs.congr rfl rfl rfl

theorem correcto_inicial : Correcto inicial where
  distintas := List.nodup_singleton 0
  frescas := by decide
  alguna := List.cons_ne_nil _ _
  rango := by decide

/-- An id that was not there is the next one. -/
theorem mem_ids_paso {e : Evento} {id : ℕ} (h : id ∈ (s.paso e).ids) :
    id ∈ s.ids ∨ id = s.idSeq := by
  cases e with
  | activate index =>
    change id ∈ (s.activate index).ids at h
    unfold BrowserTabs.activate at h
    split at h
    · exact Or.inl h
    · exact Or.inl h
  | add =>
    change id ∈ s.add.ids at h
    unfold BrowserTabs.add at h
    split at h
    · exact Or.inl h
    · change id ∈ s.agrega.ids at h
      rw [ids_agrega, List.mem_append, List.mem_singleton] at h
      exact h
  | closeAt index =>
    change id ∈ (s.closeAt index).ids at h
    by_cases hi : 0 ≤ index ∧ index < s.tabs.length
    · rw [ids_closeAt hi] at h
      split at h
      · exact Or.inr (List.mem_singleton.mp h)
      · exact Or.inl (List.mem_of_mem_eraseIdx h)
    · rw [closeAt_of_not (by omega)] at h
      exact Or.inl h
  | rename tabId title =>
    change id ∈ (s.rename tabId title).ids at h
    rw [ids_rename] at h
    exact Or.inl h
  | updateUrl tabId url =>
    change id ∈ (s.updateUrl tabId url).ids at h
    rw [ids_updateUrl] at h
    exact Or.inl h
  | registerController tabId c => exact Or.inl h
  | forgetController tabId => exact Or.inl h

theorem idSeq_le_paso (e : Evento) : s.idSeq ≤ (s.paso e).idSeq := by
  cases e with
  | activate index =>
    change s.idSeq ≤ (s.activate index).idSeq
    unfold BrowserTabs.activate
    split <;> exact Nat.le_refl _
  | add =>
    change s.idSeq ≤ s.add.idSeq
    unfold BrowserTabs.add
    split
    · exact Nat.le_refl _
    · exact Nat.le_succ _
  | closeAt index =>
    change s.idSeq ≤ (s.closeAt index).idSeq
    by_cases hi : 0 ≤ index ∧ index < s.tabs.length
    · rw [closeAt_idSeq hi]
      split
      · exact Nat.le_succ _
      · exact Nat.le_refl _
    · have hnone : s.closeAt index = s := closeAt_of_not (by omega)
      exact Nat.le_of_eq (congrArg BrowserTabs.idSeq hnone.symm)
  | rename tabId title => exact Nat.le_refl _
  | updateUrl tabId url => exact Nat.le_refl _
  | registerController tabId c => exact Nat.le_refl _
  | forgetController tabId => exact Nat.le_refl _

/-- An id that is gone never comes back. -/
theorem notMem_ids_run {id : ℕ} (hlt : id < s.idSeq) (hid : id ∉ s.ids) (es : List Evento) :
    id ∉ (Run.run paso s es).ids := by
  have hinv : id < (Run.run paso s es).idSeq ∧ id ∉ (Run.run paso s es).ids := by
    apply Run.invariant (P := fun s : BrowserTabs => id < s.idSeq ∧ id ∉ s.ids)
    · intro s e hs
      refine ⟨Nat.lt_of_lt_of_le hs.1 (idSeq_le_paso e), fun h => ?_⟩
      rcases mem_ids_paso h with h | h
      · exact hs.2 h
      · exact absurd h (Nat.ne_of_lt hs.1)
    · exact ⟨hlt, hid⟩
  exact hinv.2

theorem activeId_eq (hs : Correcto s) : s.activeId = s.ids[s.activeIndex.toNat]? := by
  have hempty : s.tabs.isEmpty = false := by
    rw [List.isEmpty_eq_false_iff]
    exact hs.alguna
  have hindex : max 0 (min s.activeIndex (s.tabs.length - 1)) = s.activeIndex := by
    have h := hs.rango
    omega
  rw [activeId, active, ids, List.getElem?_map]
  simp only [hempty, Bool.false_eq_true, if_false, hindex]

theorem mantieneActiva_iff (hs : Correcto s) (e : Evento) :
    MantieneActiva s e ↔ ActivaAlFinal s e := by
  cases e with
  | closeAt i =>
    have hactive := hs.rango
    by_cases hi : 0 ≤ i ∧ i < s.tabs.length
    · by_cases hne : i = s.activeIndex
      · exact iff_of_true (fun h => absurd hne h) fun _ hlt => by omega
      have hids : (s.closeAt i).ids = s.ids.eraseIdx i.toNat := by
        rw [ids_closeAt hi, if_neg (by omega)]
      have hlen : s.ids.length = s.tabs.length := List.length_map _
      have hlen' : (s.closeAt i).tabs.length = (s.closeAt i).ids.length := (List.length_map _).symm
      have hcursor := Cursor.getElem?_eraseIdx_clamp (i := i.toNat) (a := s.activeIndex.toNat)
        hs.distintas (by omega) (by omega) (by omega)
      have hkept : (s.closeAt i).activeId = s.activeId ↔
          (i.toNat < s.activeIndex.toNat → s.activeIndex.toNat + 1 = s.ids.length) := by
        rw [activeId_eq (hs.closeAt i), activeId_eq hs, closeAt_activeIndex hi hactive.1,
          Int.toNat_natCast, hlen', hids]
        exact hcursor
      constructor
      · intro h _ hlt
        have hlast := hkept.mp (h hne) (by omega)
        omega
      · intro h _
        refine hkept.mpr fun hlt => ?_
        have hlast := h hi.1 (by omega)
        omega
    · refine iff_of_true (fun _ => ?_) fun h0 hlt => ?_
      · rw [closeAt_of_not (by omega)]
      · omega
  | _ => exact Iff.rfl

/-- What the tabs promise along a run. -/
structure Prometido (es : List Evento) : Prop where
  correcto : Run.Always paso Correcto inicial es
  unicas : ∀ es₁ es₂ es₃ id, es = es₁ ++ es₂ ++ es₃ → id ∈ (Run.run paso inicial es₁).ids →
    id ∉ (Run.run paso inicial (es₁ ++ es₂)).ids → id ∉ (Run.run paso inicial es).ids
  quita : Run.AllSteps paso QuitaUna inicial es
  activa : Run.AllSteps paso MantieneActiva inicial es

theorem quitaUna (s : BrowserTabs) (e : Evento) : QuitaUna s e := by
  cases e with
  | closeAt i => exact fun h0 hlt => closeAt_tabs ⟨h0, hlt⟩
  | _ => exact trivial

theorem correcto_run (es : List Evento) : Correcto (Run.run paso inicial es) :=
  Run.invariant (fun _ e hs => hs.paso e) correcto_inicial es

/-- A run keeps what is promised exactly when nothing is closed before an active tab that is
not the last. -/
theorem prometido_iff (es : List Evento) :
    Prometido es ↔ Run.AllSteps paso ActivaAlFinal inicial es := by
  have hiff : Run.AllSteps paso MantieneActiva inicial es ↔
      Run.AllSteps paso ActivaAlFinal inicial es :=
    Run.allSteps_iff_of_invariant (I := Correcto) (fun s e hs _ => hs.paso e)
      (fun s e hs => mantieneActiva_iff hs e) correcto_inicial es
  constructor
  · intro h
    exact hiff.mp h.activa
  · intro h
    refine ⟨?_, ?_, ?_, hiff.mpr h⟩
    · exact Run.always_of_invariant (fun s e hs => hs.paso e) correcto_inicial es
    · intro es₁ es₂ es₃ id hes hid hgone
      have hlt := (correcto_run es₁).frescas id hid
      have hle : (Run.run paso inicial es₁).idSeq ≤ (Run.run paso inicial (es₁ ++ es₂)).idSeq := by
        rw [Run.run_append]
        exact Run.invariant (P := fun s : BrowserTabs => (Run.run paso inicial es₁).idSeq ≤ s.idSeq)
          (fun s e hs => Nat.le_trans hs (idSeq_le_paso e)) (Nat.le_refl _) es₂
      rw [hes, Run.run_append]
      exact notMem_ids_run (Nat.lt_of_lt_of_le hlt hle) hgone es₃
    · exact Run.AllSteps.of_forall quitaUna inicial es

/-- Three tabs, the second active, and the first is closed. -/
theorem first_of_three : ¬ ∀ es, Prometido es := by
  intro h
  have hactiva := (h [.add, .add, .activate 1, .closeAt 0]).activa
  exact absurd (hactiva.2.2.2.1 (by decide)) (by decide)

end BrowserTabs
end Nerea.Browser
