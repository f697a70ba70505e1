import Nerea.Mainline.Id
import Mathlib.Data.Finset.Dedup

/-!
# Nodes and which of them get along

A node is an id at an address, with the time it was made. A list of nodes takes a new one
only if none of the same IP in it is insecure or begins as the new one does. Nodes taken so
get along: of two with one IP one at least is secure, and they begin differently.
-/

set_option autoImplicit false

namespace Nerea.Mainline

structure SocketAddrV4 where
  ip : Ipv4Addr
  port : UInt16
deriving DecidableEq

/-- Times are in nanoseconds. -/
def secs (n : ℕ) : ℕ := n * 1000000000

def staleTime : ℕ := secs (15 * 60)

def minPingBackoffInterval : ℕ := secs 10

def tokenRotateInterval : ℕ := secs (60 * 5)

structure Node where
  id : Id
  address : SocketAddrV4
  token : Option (List UInt8)
  lastSeen : ℕ
deriving DecidableEq

namespace Node

variable (n other : Node) (now : ℕ)

def new (id : Id) (address : SocketAddrV4) (now : ℕ) : Node := ⟨id, address, none, now⟩

def newWithToken (id : Id) (address : SocketAddrV4) (token : List UInt8) (now : ℕ) : Node :=
  ⟨id, address, some token, now⟩

def elapsed : ℕ := now - n.lastSeen

def isStale : Bool := staleTime < n.elapsed now

def validToken : Bool := n.elapsed now ≤ tokenRotateInterval

def shouldPing : Bool := minPingBackoffInterval < n.elapsed now

def sameIp : Bool := n.address.ip = other.address.ip

def isSecure : Bool := n.id.isValidForIp n.address.ip

def first21Bits : List UInt8 := Mainline.first21Bits n.id.bytes

def alreadyExists (nodes : List Node) : Bool :=
  nodes.any fun existing =>
    n.sameIp existing && (!existing.isSecure || n.first21Bits = existing.first21Bits)

/-- What `alreadyExists` leaves of two nodes, whichever of them came first. -/
def GetsAlong : Prop :=
  n.address.ip = other.address.ip →
    n.first21Bits ≠ other.first21Bits ∧ (n.isSecure = true ∨ other.isSecure = true)

variable {n other}

theorem alreadyExists_eq_false {nodes : List Node} :
    n.alreadyExists nodes = false ↔
      ∀ m ∈ nodes, n.address.ip = m.address.ip →
        m.isSecure = true ∧ n.first21Bits ≠ m.first21Bits := by
  simp only [alreadyExists, List.any_eq_false, sameIp, Bool.and_eq_true, decide_eq_true_iff,
    Bool.or_eq_true, Bool.not_eq_true', not_and, not_or, Bool.not_eq_false, ne_eq]

theorem getsAlong_symm (h : n.GetsAlong other) : other.GetsAlong n := by
  intro hip
  obtain ⟨hne, hsecure⟩ := h hip.symm
  exact ⟨hne.symm, hsecure.symm⟩

theorem getsAlong_of_alreadyExists {nodes : List Node} (h : n.alreadyExists nodes = false)
    {m : Node} (hm : m ∈ nodes) : n.GetsAlong m := by
  intro hip
  obtain ⟨hsecure, hne⟩ := alreadyExists_eq_false.mp h m hm hip
  exact ⟨hne, Or.inr hsecure⟩

/-- A node with the id and the IP of one in the list is refused. -/
theorem alreadyExists_of_same {nodes : List Node} {m : Node} (hm : m ∈ nodes) (hid : n.id = m.id)
    (hip : n.address.ip = m.address.ip) : n.alreadyExists nodes = true := by
  cases h : n.alreadyExists nodes with
  | true => rfl
  | false =>
    obtain ⟨-, hne⟩ := alreadyExists_eq_false.mp h m hm hip
    exact absurd (congrArg (fun id : Id => Mainline.first21Bits id.bytes) hid) hne

/-- The nodes of a list at an IP. -/
def atIp (nodes : List Node) (ip : Ipv4Addr) : List Node :=
  nodes.filter (fun n => n.address.ip = ip)

theorem mem_atIp {nodes : List Node} {ip : Ipv4Addr} {n : Node} :
    n ∈ atIp nodes ip ↔ n ∈ nodes ∧ n.address.ip = ip := by
  rw [atIp, List.mem_filter, decide_eq_true_iff]

section GetAlong
variable {nodes : List Node} (h : nodes.Pairwise GetsAlong) (ip : Ipv4Addr)
include h

/-- Nodes of one IP begin differently, and of any two one at least is secure. -/
theorem pairwise_atIp :
    (atIp nodes ip).Pairwise (fun m n => m.first21Bits ≠ n.first21Bits ∧
      (m.isSecure = true ∨ n.isSecure = true)) := by
  apply List.Pairwise.imp_of_mem _ (h.filter _)
  intro m n hm hn halong
  exact halong ((mem_atIp.mp hm).2.trans (mem_atIp.mp hn).2.symm)

theorem insecure_le_one : ((atIp nodes ip).filter (fun n => !n.isSecure)).length ≤ 1 := by
  have hpair := (pairwise_atIp h ip).filter (fun n => !n.isSecure)
  match hl : (atIp nodes ip).filter (fun n => !n.isSecure) with
  | [] =>
    rw [hl]
    exact Nat.zero_le 1
  | [_] =>
    rw [hl]
    exact Nat.le_refl 1
  | m :: n :: rest =>
    rw [hl] at hpair
    have hinsecure : ∀ x ∈ m :: n :: rest, x.isSecure = false := by
      intro x hx
      rw [← hl, List.mem_filter, Bool.not_eq_true'] at hx
      exact hx.2
    have hsecure := ((List.pairwise_cons.mp hpair).1 n List.mem_cons_self).2
    rw [hinsecure m List.mem_cons_self,
      hinsecure n (List.mem_cons_of_mem m List.mem_cons_self)] at hsecure
    rcases hsecure with hsecure | hsecure <;> cases hsecure

/-- The secure ones each begin in one of eight ways. -/
theorem secure_le_eight (hip : ¬ Id.Exempt ip) : ((atIp nodes ip).filter isSecure).length ≤ 8 := by
  have hinj : (((atIp nodes ip).filter isSecure).map first21Bits).Nodup :=
    List.pairwise_map.mpr (((pairwise_atIp h ip).filter isSecure).imp And.left)
  have hsub : (((atIp nodes ip).filter isSecure).map first21Bits).toFinset ⊆ validPrefixes ip := by
    intro p hp
    obtain ⟨n, hn, rfl⟩ := List.mem_map.mp (List.mem_toFinset.mp hp)
    obtain ⟨hn, hsecure⟩ := List.mem_filter.mp hn
    rw [isSecure, (mem_atIp.mp hn).2] at hsecure
    exact Id.first21Bits_mem hip hsecure
  have hcard := Finset.card_le_card hsub
  rw [List.toFinset_card_of_nodup hinj, List.length_map] at hcard
  exact Nat.le_trans hcard (card_validPrefixes_le ip)

theorem atIp_le_nine (hip : ¬ Id.Exempt ip) : (atIp nodes ip).length ≤ 9 := by
  have hone := insecure_le_one h ip
  have height := secure_le_eight h ip hip
  have hlen : (atIp nodes ip).length = ((atIp nodes ip).filter isSecure).length +
      ((atIp nodes ip).filter (fun n => !n.isSecure)).length :=
    List.length_eq_length_filter_add isSecure
  omega

end GetAlong

end Node

end Nerea.Mainline
