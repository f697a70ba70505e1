import Nerea.Colab.Runtime

/-!
# The connection under its threads

What holds of the connection at all times, what a thread finds where it awaits something,
and how both survive the changes that other threads make.
-/

set_option autoImplicit false

namespace Nerea.Colab

def Pc.arranca : Pc → Bool
  | .creando _ => true
  | .abriendo _ _ => true
  | .matando => true
  | _ => false

def Pc.cierra : Pc → Bool
  | .borrando => true
  | .cerrando => true
  | _ => false

namespace Conexion

structure Apagada (c : Conexion) : Prop where
  started : c.started = false
  kernelId : c.kernelId = none
  channel : c.channel = none

/-- The channel is the open socket of the current generation, on the stored kernel. -/
def Enlazada (c : Conexion) : Prop :=
  ∃ k id, c.channel = some k ∧ c.sockets[k]? = some ⟨c.gen, id, .abierto, false⟩ ∧
    c.kernelId = some id

/-- What holds of the connection wherever the threads stand. -/
structure Base (c : Conexion) : Prop where
  creados : c.creados ≤ 1
  sinKernel : c.kernelId = none → c.creados = 0
  generaciones : ∀ (k : SocketId) (x : Socket), c.sockets[k]? = some x → x.gen ≤ c.gen
  unicas : ∀ (k k' : SocketId) (x x' : Socket), c.sockets[k]? = some x → c.sockets[k']? = some x' →
    x.gen = x'.gen → k = k'
  viejos : ∀ v ∈ c.cierresViejos, v.2 ≤ v.1
  apagada : c.cerrado = true → c.Apagada

/-- The socket of a start that is still the last one. -/
structure Actual (c : Conexion) (k : SocketId) (x : Socket) : Prop where
  channel : c.channel = some k
  sinkClosed : x.sinkClosed = false
  kernelId : c.kernelId = some x.kernelId
  cerrado : c.cerrado = false

/-- What a thread finds where it awaits something. -/
structure Turno (c : Conexion) (estricto : Prop) (pc : Pc) : Prop where
  cierra : pc.cierra = true → estricto → c.started = false
  arranca : pc.arranca = true → c.started = false
  creando : ∀ gen, pc = .creando gen → gen = c.gen ∧ c.kernelId = none ∧ c.cerrado = false ∧
    ∀ (k : SocketId) (x : Socket), c.sockets[k]? = some x → x.gen < gen
  abriendo : ∀ gen k, pc = .abriendo gen k → (c.channel = none ∨ c.channel = some k) ∧
    ∃ x, c.sockets[k]? = some x ∧ x.gen = gen ∧ x.state = .conectando ∧
      (gen = c.gen → c.Actual k x)
  matando : pc = .matando → c.cerrado = false

variable {c c' : Conexion} {estricto : Prop} {pc : Pc}

theorem turno_of_quieto (c : Conexion) (estricto : Prop) (harranca : pc.arranca = false)
    (hcierra : pc.cierra = false) : c.Turno estricto pc := by
  refine ⟨?_, ?_, ?_, ?_, ?_⟩
  · intro h
    exact absurd (hcierra.symm.trans h) Bool.false_ne_true
  · intro h
    exact absurd (harranca.symm.trans h) Bool.false_ne_true
  · rintro gen rfl
    cases harranca
  · rintro gen k rfl
    cases harranca
  · rintro rfl
    cases harranca

theorem turno_of_cierra (hcierra : pc.cierra = true)
    (hstarted : estricto → c.started = false) : c.Turno estricto pc := by
  refine ⟨fun _ => hstarted, ?_, ?_, ?_, ?_⟩
  · intro h
    cases pc <;> cases h <;> cases hcierra
  · rintro gen rfl
    cases hcierra
  · rintro gen k rfl
    cases hcierra
  · rintro rfl
    cases hcierra

def Mismos (c c' : Conexion) : Prop :=
  ∀ (k : SocketId) (x' : Socket), c'.sockets[k]? = some x' →
    ∃ x : Socket, c.sockets[k]? = some x ∧ x'.gen = x.gen

def Conectan (c c' : Conexion) : Prop :=
  ∀ (k : SocketId) (x : Socket), c.sockets[k]? = some x → x.state = .conectando →
    ∃ x' : Socket, c'.sockets[k]? = some x' ∧ x'.gen = x.gen ∧ x'.state = .conectando

/-- A start that was overtaken waits on, whatever happens to the connection. -/
theorem turno_abriendo_of_ne {gen : ℕ} {k : SocketId} (h : c.Turno estricto (.abriendo gen k))
    (hgen : gen ≠ c'.gen) (hstarted : c'.started = false)
    (hchannel : c'.channel = none ∨ c'.channel = c.channel) (hsockets : Conectan c c') :
    c'.Turno estricto (.abriendo gen k) := by
  obtain ⟨hold, x, hx, hxgen, hstate, -⟩ := h.abriendo gen k rfl
  obtain ⟨x', hx', hxgen', hstate'⟩ := hsockets k x hx hstate
  refine ⟨nofun, fun _ => hstarted, nofun, ?_, nofun⟩
  intro gen' k' hpc
  cases hpc
  refine ⟨?_, x', hx', hxgen'.trans hxgen, hstate', fun heq => absurd heq hgen⟩
  rcases hchannel with hchannel | hchannel
  · exact Or.inl hchannel
  · rw [hchannel]
    exact hold

theorem Base.of_mismos (h : c.Base) (hsockets : Mismos c c') (hgen : c.gen ≤ c'.gen)
    (hcreados : c'.creados ≤ 1) (hsinKernel : c'.kernelId = none → c'.creados = 0)
    (hviejos : ∀ v ∈ c'.cierresViejos, v.2 ≤ v.1)
    (hapagada : c'.cerrado = true → c'.Apagada) : c'.Base := by
  refine ⟨hcreados, hsinKernel, ?_, ?_, hviejos, hapagada⟩
  · intro k x' hx'
    obtain ⟨x, hx, heq⟩ := hsockets k x' hx'
    rw [heq]
    exact Nat.le_trans (h.generaciones k x hx) hgen
  · intro k k' x' y' hx' hy' heq
    obtain ⟨x, hx, hxgen⟩ := hsockets k x' hx'
    obtain ⟨y, hy, hygen⟩ := hsockets k' y' hy'
    exact h.unicas k k' x y hx hy (hxgen ▸ hygen ▸ heq)

theorem Base.of_kernel (h : c.Base) (hsockets : Mismos c c') (hgen : c.gen ≤ c'.gen)
    (hkernelId : c'.kernelId = c.kernelId) (hcreados : c'.creados = c.creados)
    (hviejos : c'.cierresViejos = c.cierresViejos)
    (hapagada : c'.cerrado = true → c'.Apagada) : c'.Base := by
  apply h.of_mismos hsockets hgen _ _ _ hapagada
  · exact hcreados ▸ h.creados
  · intro hnone
    rw [hcreados]
    exact h.sinKernel (hkernelId ▸ hnone)
  · rw [hviejos]
    exact h.viejos

theorem mismos_of_eq (h : c'.sockets = c.sockets) : Mismos c c' := by
  intro k x' hx'
  exact ⟨x', h ▸ hx', rfl⟩

theorem conectan_of_eq (h : c'.sockets = c.sockets) : Conectan c c' := by
  intro k x hx hstate
  exact ⟨x, h ▸ hx, rfl, hstate⟩

theorem mismos_of_modify {k : SocketId} {f : Socket → Socket}
    (h : c'.sockets = c.sockets.modify k f) (hgen : ∀ x, (f x).gen = x.gen) : Mismos c c' := by
  intro j x' hx'
  rw [h, List.getElem?_modify, Option.map_eq_map, Option.map_eq_some_iff] at hx'
  obtain ⟨x, hx, rfl⟩ := hx'
  refine ⟨x, hx, ?_⟩
  split
  · exact hgen x
  · rfl

theorem conectan_of_modify {k : SocketId} {f : Socket → Socket}
    (h : c'.sockets = c.sockets.modify k f) (hgen : ∀ x, (f x).gen = x.gen)
    (hstate : ∀ x, c.sockets[k]? = some x → x.state = .conectando → (f x).state = .conectando) :
    Conectan c c' := by
  intro j x hx hxstate
  refine ⟨if k = j then f x else x, ?_, ?_, ?_⟩
  · rw [h, List.getElem?_modify, hx]
    rfl
  · split
    · exact hgen x
    · rfl
  · split
    · rename_i heq
      exact hstate x (heq ▸ hx) hxstate
    · exact hxstate

theorem Mismos.trans {c'' : Conexion} (h : Mismos c c') (h' : Mismos c' c'') : Mismos c c'' := by
  intro k x'' hx''
  obtain ⟨x', hx', hgen'⟩ := h' k x'' hx''
  obtain ⟨x, hx, hgen⟩ := h k x' hx'
  exact ⟨x, hx, hgen'.trans hgen⟩

theorem turno_lose {k : SocketId} {x : Socket} (h : c.Turno estricto pc) (hb : c.Base)
    (hx : c.sockets[k]? = some x) (hstate : x.state ≠ .conectando) (hxgen : x.gen = c.gen)
    (hstarted : c'.started = false) (hchannel : c'.channel = none) (hgen : c'.gen = c.gen)
    (hcerrado : c'.cerrado = c.cerrado) (hconectan : Conectan c c') :
    c'.Turno estricto pc := by
  cases pc with
  | creando gen =>
    obtain ⟨rfl, hnone, hcerrado', hold⟩ := h.creando gen rfl
    exact absurd (hold k x hx) (by rw [hxgen]; exact Nat.lt_irrefl _)
  | abriendo gen j =>
    refine turno_abriendo_of_ne h ?_ hstarted (Or.inl hchannel) hconectan
    intro heq
    obtain ⟨-, y, hy, hygen, hystate, -⟩ := h.abriendo gen j rfl
    have hjk : j = k := hb.unicas j k y x hy hx (by rw [hygen, heq, hgen, hxgen])
    rw [hjk] at hy
    obtain rfl := Option.some.inj (hx.symm.trans hy)
    exact hstate hystate
  | matando => exact ⟨nofun, fun _ => hstarted, nofun, nofun, fun _ => hcerrado ▸ h.matando rfl⟩
  | borrando => exact turno_of_cierra rfl fun _ => hstarted
  | cerrando => exact turno_of_cierra rfl fun _ => hstarted
  | cerrandoViejo => exact turno_of_quieto _ _ rfl rfl
  | esperando i => exact turno_of_quieto _ _ rfl rfl
  | fin => exact turno_of_quieto _ _ rfl rfl

theorem turno_modify {k : SocketId} {x : Socket} {f : Socket → Socket} (h : c.Turno estricto pc)
    (hx : c.sockets[k]? = some x) (hstate : x.state ≠ .conectando)
    (hf : ∀ x, (f x).gen = x.gen) :
    { c with sockets := c.sockets.modify k f }.Turno estricto pc := by
  refine ⟨h.cierra, h.arranca, ?_, ?_, h.matando⟩
  · intro gen hpc
    obtain ⟨hgen, hnone, hcerrado, hold⟩ := h.creando gen hpc
    refine ⟨hgen, hnone, hcerrado, ?_⟩
    intro j y' hy'
    obtain ⟨y, hy, heq⟩ := mismos_of_modify (c := c) rfl hf j y' hy'
    rw [heq]
    exact hold j y hy
  · intro gen j hpc
    obtain ⟨hchannel, y, hy, hygen, hystate, hactual⟩ := h.abriendo gen j hpc
    refine ⟨hchannel, y, ?_, hygen, hystate, ?_⟩
    · have hne : k ≠ j := by
        rintro rfl
        obtain rfl := Option.some.inj (hx.symm.trans hy)
        exact hstate hystate
      exact (List.getElem?_modify_ne _ _ hne).trans hy
    · intro heq
      obtain ⟨hchannel, hsink, hkernelId, hcerrado⟩ := hactual heq
      exact ⟨hchannel, hsink, hkernelId, hcerrado⟩

theorem Base.connect (h : c.Base) {gen : ℕ} {id : String}
    (hsockets : c'.sockets = c.sockets ++ [⟨gen, id, .conectando, false⟩])
    (hold : ∀ (k : SocketId) (x : Socket), c.sockets[k]? = some x → x.gen < gen)
    (hgen : gen ≤ c'.gen) (hcreados : c'.creados ≤ 1) (hkernelId : c'.kernelId = some id)
    (hviejos : c'.cierresViejos = c.cierresViejos) (hcerrado : c'.cerrado = false) :
    c'.Base := by
  have hsplit {k : SocketId} {x : Socket} (hx : c'.sockets[k]? = some x) :
      c.sockets[k]? = some x ∨ k = c.sockets.length ∧ x.gen = gen := by
    rw [hsockets] at hx
    rcases Nat.lt_or_ge k c.sockets.length with hlt | hge
    · exact Or.inl ((List.getElem?_append_left hlt).symm.trans hx)
    · rw [List.getElem?_append_right hge, List.getElem?_singleton] at hx
      split at hx
      · rename_i hk
        cases hx
        exact Or.inr ⟨Nat.le_antisymm (Nat.le_of_sub_eq_zero hk) hge, rfl⟩
      · cases hx
  refine ⟨hcreados, ?_, ?_, ?_, ?_, ?_⟩
  · intro hnone
    rw [hkernelId] at hnone
    cases hnone
  · intro k x hx
    rcases hsplit hx with hx | ⟨-, hx⟩
    · exact Nat.le_trans (Nat.le_of_lt (hold k x hx)) hgen
    · exact hx ▸ hgen
  · intro k k' x x' hx hx' heq
    rcases hsplit hx with hx | ⟨hk, hx⟩ <;> rcases hsplit hx' with hx' | ⟨hk', hx'⟩
    · exact h.unicas k k' x x' hx hx' heq
    · exact absurd (hold k x hx) (by rw [heq, hx']; exact Nat.lt_irrefl gen)
    · exact absurd (hold k' x' hx') (by rw [← heq, hx]; exact Nat.lt_irrefl gen)
    · rw [hk, hk']
  · rw [hviejos]
    exact h.viejos
  · intro h
    exact absurd (hcerrado.symm.trans h) Bool.false_ne_true

theorem turno_connect {gen : ℕ} {id : String} {sockets : List Socket}
    (hsockets : c.sockets = sockets ++ [⟨gen, id, .conectando, false⟩])
    (hchannel : c.channel = some sockets.length) (hstarted : c.started = false)
    (hkernelId : c.kernelId = some id) (hcerrado : c.cerrado = false) :
    c.Turno estricto (.abriendo gen sockets.length) := by
  refine ⟨nofun, fun _ => hstarted, nofun, ?_, nofun⟩
  intro gen' k hpc
  cases hpc
  refine ⟨Or.inr hchannel, ⟨gen, id, .conectando, false⟩, ?_, rfl, rfl, ?_⟩
  · rw [hsockets]
    exact List.getElem?_concat_length
  · exact fun _ => ⟨hchannel, rfl, hkernelId, hcerrado⟩

end Conexion

end Nerea.Colab
