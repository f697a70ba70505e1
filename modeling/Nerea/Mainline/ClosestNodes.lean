import Nerea.Mainline.RoutingTableRuns
import Nerea.Shared.BinarySearch

/-!
# Closest nodes

The nodes found for a target: the secure ones first, and among those of one kind the closer
ones. A node is put in by binary search, unless nodes that are there already are in its way.
The rank of a node is one number that says the same.
-/

set_option autoImplicit false

namespace Nerea.Mainline

structure ClosestNodes where
  target : Id
  nodes : List Node

namespace ClosestNodes

variable (target : Id) (c : ClosestNodes)

def new : ClosestNodes := ⟨target, []⟩

/-- The comparator of the search for the place of a node. -/
def probe (node prope : Node) : Ordering :=
  if prope.isSecure && !node.isSecure then .lt
  else if !prope.isSecure && node.isSecure then .gt
  else if prope.id = node.id then .eq
  else compare (prope.id.xor target).bytes (node.id.xor target).bytes

def add (node : Node) : ClosestNodes :=
  if node.alreadyExists c.nodes then c
  else
    match BinarySearch.search (probe c.target node) c.nodes with
    | .error pos => { c with nodes := c.nodes.insertIdx pos node }
    | .ok _ => c

def addAll (nodes : List Node) : ClosestNodes := nodes.foldl add c

/-- Secure nodes before all others, then by distance. -/
def rank (n : Node) : ℕ :=
  (if n.isSecure then 0 else 2 ^ (8 * idSize)) + (n.id.xor target).value

/-- In the order of their ranks, and all of them get along. -/
structure Sorted : Prop where
  ranks : c.nodes.Pairwise (fun m n => rank c.target m < rank c.target n)
  getAlong : c.nodes.Pairwise Node.GetsAlong

variable {target c}

theorem value_xor_lt (id target : Id) : (id.xor target).value < 2 ^ (8 * idSize) := by
  have h := XorMetric.value_lt (id.xor target).bytes
  rw [(id.xor target).size] at h
  exact h

theorem compare_offset (k a b : ℕ) : compare (k + a) (k + b) = compare a b := by
  simp only [compare, compareOfLessAndEq, Nat.add_lt_add_iff_left, Nat.add_left_cancel_iff]

/-- Nodes of one kind compare by distance; an id alone has the distance of its own. -/
theorem probe_same {node prope : Node} (h : prope.isSecure = node.isSecure) :
    probe target node prope
      = compare (prope.id.xor target).value (node.id.xor target).value := by
  unfold probe
  rw [h, Bool.and_not_self, Bool.not_and_self, if_neg Bool.false_ne_true,
    if_neg Bool.false_ne_true]
  split
  · rename_i hid
    rw [hid, compare_eq_iff_eq.mpr rfl]
  · exact Id.compare_xor _ _ _

/-- The comparator compares ranks. -/
theorem probe_eq (target : Id) (node prope : Node) :
    probe target node prope = compare (rank target prope) (rank target node) := by
  have hp := value_xor_lt prope.id target
  have hn := value_xor_lt node.id target
  cases hps : prope.isSecure <;> cases hns : node.isSecure
  · rw [probe_same (hps.trans hns.symm), rank, rank, hps, hns, compare_offset]
  · rw [eq_comm, rank, rank, hps, hns, probe, hps, hns]
    apply compare_gt_iff_gt.mpr
    simp only [Bool.false_eq_true, if_false, if_true]
    omega
  · rw [eq_comm, rank, rank, hps, hns, probe, hps, hns]
    apply compare_lt_iff_lt.mpr
    simp only [Bool.false_eq_true, if_false, if_true]
    omega
  · rw [probe_same (hps.trans hns.symm), rank, rank, hps, hns, compare_offset]

theorem rank_injective {m n : Node} (h : rank target m = rank target n) :
    m.id = n.id ∧ m.isSecure = n.isSecure := by
  have hm := value_xor_lt m.id target
  have hn := value_xor_lt n.id target
  have hsecure : m.isSecure = n.isSecure := by
    unfold rank at h
    cases hms : m.isSecure <;> cases hns : n.isSecure
    · rfl
    · rw [hms, hns, if_neg Bool.false_ne_true, if_pos rfl] at h
      omega
    · rw [hms, hns, if_neg Bool.false_ne_true, if_pos rfl] at h
      omega
    · rfl
  refine ⟨?_, hsecure⟩
  rw [rank, rank, hsecure] at h
  exact Id.xor_value_injective (Nat.add_left_cancel h)

theorem Sorted.partitioned (h : c.Sorted) (node : Node) :
    BinarySearch.Partitioned (probe c.target node) c.nodes := by
  apply h.ranks.imp
  intro m n hlt
  rw [probe_eq, probe_eq]
  constructor
  · intro hn
    rw [compare_lt_iff_lt] at hn ⊢
    exact Nat.lt_trans hlt hn
  · intro hm
    rw [compare_gt_iff_gt] at hm ⊢
    exact Nat.lt_trans hm hlt

/-- What `add` does: nothing if a node is in the way or has the rank, and else the node is put
between those of smaller and those of larger rank. -/
theorem Sorted.add_cases (h : c.Sorted) (node : Node) :
    (c.add node = c ∧ (node.alreadyExists c.nodes = true ∨
      ∃ m ∈ c.nodes, m.id = node.id ∧ m.isSecure = node.isSecure)) ∨
    (node.alreadyExists c.nodes = false ∧ ∃ before behind, c.nodes = before ++ behind ∧
      c.add node = { c with nodes := before ++ node :: behind } ∧
      (∀ m ∈ before, rank c.target m < rank c.target node) ∧
      ∀ m ∈ behind, rank c.target node < rank c.target m) := by
  unfold add
  cases hexists : node.alreadyExists c.nodes with
  | true => exact Or.inl ⟨rfl, Or.inl rfl⟩
  | false =>
    rw [if_neg Bool.false_ne_true]
    rcases (h.partitioned node).search_spec with ⟨i, x, hs, hx, heq⟩ | ⟨i, hs, hle, hlt, hgt⟩
    · rw [hs]
      rw [probe_eq, compare_eq_iff_eq] at heq
      exact Or.inl ⟨rfl, Or.inr ⟨x, hx, rank_injective heq⟩⟩
    · rw [hs]
      refine Or.inr ⟨rfl, c.nodes.take i, c.nodes.drop i, (List.take_append_drop i _).symm, ?_,
        ?_, ?_⟩
      · rw [← BinarySearch.insertIdx_eq node hle]
      · intro m hm
        have hm' := hlt m hm
        rw [probe_eq, compare_lt_iff_lt] at hm'
        exact hm'
      · intro m hm
        have hm' := hgt m hm
        rw [probe_eq, compare_gt_iff_gt] at hm'
        exact hm'

theorem sorted_new (target : Id) : (new target).Sorted :=
  ⟨List.Pairwise.nil, List.Pairwise.nil⟩

theorem Sorted.add (h : c.Sorted) (node : Node) : (c.add node).Sorted := by
  rcases h.add_cases node with ⟨heq, -⟩ | ⟨hexists, before, behind, hsplit, heq, hlt, hgt⟩
  · rw [heq]
    exact h
  · have hranks := h.ranks
    have halong := h.getAlong
    rw [hsplit, List.pairwise_append] at hranks halong
    have hnew : ∀ m ∈ before ++ behind, node.GetsAlong m := by
      rw [← hsplit]
      exact fun m hm => Node.getsAlong_of_alreadyExists hexists hm
    rw [heq]
    refine ⟨?_, ?_⟩
    · simp only [List.pairwise_append, List.pairwise_cons, List.mem_cons]
      refine ⟨hranks.1, ⟨hgt, hranks.2.1⟩, ?_⟩
      rintro m hm n (rfl | hn)
      · exact hlt m hm
      · exact hranks.2.2 m hm n hn
    · simp only [List.pairwise_append, List.pairwise_cons, List.mem_cons]
      refine ⟨halong.1, ⟨fun n hn => hnew n (List.mem_append_right before hn), halong.2.1⟩, ?_⟩
      rintro m hm n (rfl | hn)
      · exact Node.getsAlong_symm (hnew m (List.mem_append_left behind hm))
      · exact halong.2.2 m hm n hn

theorem Sorted.addAll (h : c.Sorted) (nodes : List Node) : (c.addAll nodes).Sorted := by
  induction nodes generalizing c with
  | nil => exact h
  | cons node nodes ih => exact ih (h.add node)

theorem target_add (c : ClosestNodes) (node : Node) : (c.add node).target = c.target := by
  unfold add
  split
  · rfl
  · split <;> rfl

theorem target_addAll (c : ClosestNodes) (nodes : List Node) :
    (c.addAll nodes).target = c.target := by
  induction nodes generalizing c with
  | nil => rfl
  | cons node nodes ih => exact (ih (c.add node)).trans (target_add c node)

/-- Nothing in the list is in the way of the node, and none has its rank. -/
def Accepts (c : ClosestNodes) (node : Node) : Prop :=
  node.alreadyExists c.nodes = false ∧
    ∀ m ∈ c.nodes, ¬ (m.id = node.id ∧ m.isSecure = node.isSecure)

theorem Sorted.mem_add (h : c.Sorted) {node n : Node} :
    n ∈ (c.add node).nodes ↔ n ∈ c.nodes ∨ (n = node ∧ c.Accepts node) := by
  rcases h.add_cases node with ⟨heq, hwhy⟩ | ⟨hexists, before, behind, hsplit, heq, hlt, hgt⟩
  · rw [heq]
    constructor
    · exact Or.inl
    · rintro (hn | ⟨-, hfree, hrank⟩)
      · exact hn
      · rcases hwhy with hwhy | ⟨m, hm, hsame⟩
        · rw [hwhy] at hfree
          cases hfree
        · exact absurd hsame (hrank m hm)
  · have haccepts : c.Accepts node := by
      refine ⟨hexists, ?_⟩
      rintro m hm ⟨hid, hsecure⟩
      have hrank : rank c.target m = rank c.target node := by
        rw [rank, rank, hid, hsecure]
      rw [hsplit, List.mem_append] at hm
      rcases hm with hm | hm
      · exact absurd hrank (Nat.ne_of_lt (hlt m hm))
      · exact absurd hrank (Nat.ne_of_gt (hgt m hm))
    rw [heq, hsplit, List.mem_append, List.mem_append, List.mem_cons]
    constructor
    · rintro (hn | rfl | hn)
      · exact Or.inl (Or.inl hn)
      · exact Or.inr ⟨rfl, haccepts⟩
      · exact Or.inl (Or.inr hn)
    · rintro ((hn | hn) | ⟨rfl, -⟩)
      · exact Or.inl hn
      · exact Or.inr (Or.inr hn)
      · exact Or.inr (Or.inl rfl)

/-- The node is in the list, and every node before it with its IP is secure. -/
def Unshadowed (l : List Node) (n : Node) : Prop :=
  ∃ before behind, l = before ++ n :: behind ∧
    ∀ m ∈ before, m.address.ip = n.address.ip → m.isSecure = true

theorem Unshadowed.mem {l : List Node} {n : Node} (h : Unshadowed l n) : n ∈ l := by
  obtain ⟨before, behind, rfl, -⟩ := h
  exact List.mem_append_right before List.mem_cons_self

theorem unshadowed_concat {l : List Node} {x n : Node} :
    Unshadowed (l ++ [x]) n ↔ Unshadowed l n ∨
      (n = x ∧ ∀ m ∈ l, m.address.ip = x.address.ip → m.isSecure = true) := by
  constructor
  · rintro ⟨before, behind, heq, hbefore⟩
    rcases List.eq_nil_or_concat behind with rfl | ⟨behind, y, rfl⟩
    · obtain ⟨rfl, hx⟩ := List.append_inj' heq rfl
      obtain rfl := (List.cons.inj hx).1
      exact Or.inr ⟨rfl, hbefore⟩
    · have hassoc : before ++ n :: behind.concat y = (before ++ n :: behind) ++ [y] := by
        rw [List.concat_eq_append, List.append_assoc, List.cons_append]
      rw [hassoc] at heq
      exact Or.inl ⟨before, behind, (List.append_inj' heq rfl).1, hbefore⟩
  · rintro (⟨before, behind, rfl, hbefore⟩ | ⟨rfl, hbefore⟩)
    · exact ⟨before, behind ++ [x], by rw [List.append_assoc, List.cons_append], hbefore⟩
    · exact ⟨l, [], rfl, hbefore⟩

/-- An insecure node is unshadowed among nodes that get along. -/
theorem unshadowed_of_insecure {l : List Node} (halong : l.Pairwise Node.GetsAlong) {n : Node}
    (hn : n ∈ l) (hsecure : n.isSecure = false) : Unshadowed l n := by
  obtain ⟨before, behind, rfl⟩ := List.append_of_mem hn
  refine ⟨before, behind, rfl, ?_⟩
  intro m hm hip
  have hpair := (List.pairwise_append.mp halong).2.2 m hm n List.mem_cons_self
  exact (hpair hip).2.resolve_right (by rw [hsecure]; exact Bool.false_ne_true)

/-- Of nodes that get along, with ids of their own, those are kept that no insecure node of
their IP came before. -/
theorem mem_addAll_new {l : List Node} (hids : (l.map Node.id).Nodup)
    (halong : l.Pairwise Node.GetsAlong) {n : Node} :
    n ∈ ((new target).addAll l).nodes ↔ Unshadowed l n := by
  induction l using List.reverseRecOn generalizing n with
  | nil =>
    constructor
    · intro h
      exact absurd h List.not_mem_nil
    · intro h
      exact absurd h.mem List.not_mem_nil
  | append_singleton l x ih =>
    rw [List.map_append, List.nodup_append] at hids
    rw [List.pairwise_append] at halong
    have hx : ∀ m ∈ l, m.GetsAlong x :=
      fun m hm => halong.2.2 m hm x (List.mem_singleton_self x)
    have hkept : ∀ {m}, m ∈ ((new target).addAll l).nodes ↔ Unshadowed l m :=
      ih hids.1 halong.1
    have hadd : (new target).addAll (l ++ [x]) = ((new target).addAll l).add x :=
      List.foldl_append
    rw [hadd, ((sorted_new target).addAll l).mem_add, hkept, unshadowed_concat]
    have haccepts : ((new target).addAll l).Accepts x ↔
        ∀ m ∈ l, m.address.ip = x.address.ip → m.isSecure = true := by
      constructor
      · rintro ⟨hfree, -⟩ m hm hip
        by_contra hsecure
        rw [Bool.not_eq_true] at hsecure
        have hm' := hkept.mpr (unshadowed_of_insecure halong.1 hm hsecure)
        have hfree' := (Node.alreadyExists_eq_false.mp hfree m hm' hip.symm).1
        rw [hsecure] at hfree'
        cases hfree'
      · intro hsecure
        refine ⟨Node.alreadyExists_eq_false.mpr ?_, ?_⟩
        · intro m hm hip
          have hm' := (hkept.mp hm).mem
          exact ⟨hsecure m hm' hip.symm, ((hx m hm') hip.symm).1.symm⟩
        · rintro m hm ⟨hid, -⟩
          have hm' := (hkept.mp hm).mem
          exact hids.2.2 m.id (List.mem_map_of_mem hm') x.id (List.mem_singleton_self _) hid
    rw [haccepts]

/-- Whoever gives the nodes and in whatever order: the secure ones come first, the closer ones
of one kind before the others, and an IP that is not exempt has nine of them at most. -/
theorem addAll_wellFormed (target : Id) (nodes : List Node) (ip : Ipv4Addr)
    (hip : ¬ Id.Exempt ip) :
    ((new target).addAll nodes).nodes.Pairwise (fun m n => rank target m < rank target n) ∧
    ((Node.atIp ((new target).addAll nodes).nodes ip).filter Node.isSecure).length ≤ 8 ∧
    ((Node.atIp ((new target).addAll nodes).nodes ip).filter (fun n => !n.isSecure)).length ≤ 1 ∧
    (Node.atIp ((new target).addAll nodes).nodes ip).length ≤ 9 := by
  have h := (sorted_new target).addAll nodes
  have hranks := h.ranks
  rw [target_addAll] at hranks
  exact ⟨hranks, Node.secure_le_eight h.getAlong ip hip, Node.insecure_le_one h.getAlong ip,
    Node.atIp_le_nine h.getAlong ip hip⟩

/-- Two nodes of one public IP, one of them insecure. -/
theorem addAll_wellFormed_public :
    (Node.atIp ((new RoutingTable.zeroId).addAll [.new RoutingTable.oneId ⟨⟨8, 8, 8, 8⟩, 53⟩ 0,
      .new RoutingTable.zeroId ⟨⟨8, 8, 8, 8⟩, 54⟩ 0]).nodes ⟨8, 8, 8, 8⟩).length ≤ 9 :=
  (addAll_wellFormed RoutingTable.zeroId _ ⟨8, 8, 8, 8⟩ (by unfold Id.Exempt; decide)).2.2.2

/-- The first six bits of the address. -/
def subnet (n : Node) : ℕ := ((n.address.ip.toBits >>> 26) &&& 0x3f#32).toNat

def subnetsCount (c : ClosestNodes) : ℕ :=
  if c.nodes.isEmpty then 20
  else ((c.nodes.take maxBucketSizeK).map subnet).toFinset.card

/-- The first sixteen bytes of the exclusive or, as a number. -/
def distance (target : Id) (n : Node) : ℕ := XorMetric.value ((n.id.xor target).bytes.take 16)

section TakeUntilSecure

-- `expectedDk` stands for the floating point estimate of the distance of the twentieth node
variable (target : Id) (expectedDk averageSubnets : ℕ)

/-- The loop of `take_until_secure`, with the subnets seen so far. -/
def untilSecure : List Node → Finset ℕ → ℕ
  | [], _ => 0
  | node :: nodes, subnets =>
    let subnets := insert (subnet node) subnets
    if expectedDk ≤ distance target node ∧ averageSubnets ≤ subnets.card then 0
    else untilSecure nodes subnets + 1

def takeUntilSecure (c : ClosestNodes) : List Node :=
  c.nodes.take (min (max (untilSecure c.target expectedDk averageSubnets c.nodes ∅)
    maxBucketSizeK) c.nodes.length)

/-- The node at the index is far enough, and enough subnets have been seen with it. -/
def Enough (nodes : List Node) (subnets : Finset ℕ) (i : ℕ) : Prop :=
  ∃ n, nodes[i]? = some n ∧ expectedDk ≤ distance target n ∧
    averageSubnets ≤ (subnets ∪ ((nodes.take (i + 1)).map subnet).toFinset).card

theorem enough_zero (node : Node) (nodes : List Node) (subnets : Finset ℕ) :
    Enough target expectedDk averageSubnets (node :: nodes) subnets 0 ↔
      expectedDk ≤ distance target node ∧ averageSubnets ≤ (insert (subnet node) subnets).card := by
  have hset : subnets ∪ (((node :: nodes).take 1).map subnet).toFinset
      = insert (subnet node) subnets := by
    rw [List.take_succ_cons, List.take_zero, List.map_cons, List.map_nil, List.toFinset_cons,
      List.toFinset_nil, Finset.union_insert, Finset.union_empty]
  rw [Enough, Nat.zero_add, hset]
  constructor
  · rintro ⟨n, hn, h⟩
    obtain rfl := Option.some.inj hn
    exact h
  · exact fun h => ⟨node, rfl, h⟩

theorem enough_succ (node : Node) (nodes : List Node) (subnets : Finset ℕ) (i : ℕ) :
    Enough target expectedDk averageSubnets (node :: nodes) subnets (i + 1) ↔
      Enough target expectedDk averageSubnets nodes (insert (subnet node) subnets) i := by
  have hset : subnets ∪ (((node :: nodes).take (i + 1 + 1)).map subnet).toFinset
      = insert (subnet node) subnets ∪ ((nodes.take (i + 1)).map subnet).toFinset := by
    rw [List.take_succ_cons, List.map_cons, List.toFinset_cons, Finset.union_insert,
      Finset.insert_union]
  rw [Enough, Enough, hset, List.getElem?_cons_succ]

/-- The loop stops at the first index where there is enough, or at the end. -/
theorem untilSecure_spec (nodes : List Node) (subnets : Finset ℕ) :
    untilSecure target expectedDk averageSubnets nodes subnets ≤ nodes.length ∧
    (untilSecure target expectedDk averageSubnets nodes subnets < nodes.length →
      Enough target expectedDk averageSubnets nodes subnets
        (untilSecure target expectedDk averageSubnets nodes subnets)) ∧
    ∀ i < untilSecure target expectedDk averageSubnets nodes subnets,
      ¬ Enough target expectedDk averageSubnets nodes subnets i := by
  induction nodes generalizing subnets with
  | nil => exact ⟨Nat.le_refl 0, fun h => absurd h (Nat.lt_irrefl 0),
      fun i hi => absurd hi (Nat.not_lt_zero i)⟩
  | cons node nodes ih =>
    rw [untilSecure]
    split
    · rename_i henough
      exact ⟨Nat.zero_le _, fun _ => (enough_zero _ _ _ _ _ _).mpr henough,
        fun i hi => absurd hi (Nat.not_lt_zero i)⟩
    · rename_i hnot
      obtain ⟨hle, hstop, hbefore⟩ := ih (insert (subnet node) subnets)
      refine ⟨Nat.succ_le_succ hle, ?_, ?_⟩
      · intro hlt
        exact (enough_succ _ _ _ _ _ _ _).mpr (hstop (Nat.lt_of_succ_lt_succ hlt))
      · intro i hi
        cases i with
        | zero => exact fun h => hnot ((enough_zero _ _ _ _ _ _).mp h)
        | succ i =>
          exact fun h => hbefore i (Nat.lt_of_succ_lt_succ hi) ((enough_succ _ _ _ _ _ _ _).mp h)

/-- What is taken is a first part of the list: twenty nodes at least, if there are so many; no
node more than that where there was enough before; and all of them unless there is enough. -/
theorem takeUntilSecure_spec (c : ClosestNodes) :
    ∃ k, takeUntilSecure expectedDk averageSubnets c = c.nodes.take k ∧
      k ≤ c.nodes.length ∧ min maxBucketSizeK c.nodes.length ≤ k ∧
      (k < c.nodes.length → ∃ i ≤ k, Enough c.target expectedDk averageSubnets c.nodes ∅ i) ∧
      (maxBucketSizeK < k → ∀ i < k, ¬ Enough c.target expectedDk averageSubnets c.nodes ∅ i) := by
  obtain ⟨hle, hstop, hbefore⟩ :=
    untilSecure_spec c.target expectedDk averageSubnets c.nodes ∅
  refine ⟨_, rfl, Nat.min_le_right _ _, ?_, ?_, ?_⟩
  · omega
  · intro hlt
    refine ⟨untilSecure c.target expectedDk averageSubnets c.nodes ∅, by omega, hstop (by omega)⟩
  · intro hk i hi
    exact hbefore i (by omega)

end TakeUntilSecure

end ClosestNodes

namespace RoutingTable

variable (t : RoutingTable) (target : Id)

def closestNodes : ClosestNodes := (ClosestNodes.new target).addAll t.listed

def closest : List Node :=
  (t.closestNodes target).nodes.take (min maxBucketSizeK (t.closestNodes target).nodes.length)

def closestSecure (expectedDk averageSubnets : ℕ) : List Node :=
  ClosestNodes.takeUntilSecure expectedDk averageSubnets (t.closestNodes target)

variable {t}

/-- After any run, `closest` gives the first twenty, in the order of security and distance to
the target, of the nodes of the table that no insecure node of their IP comes before. -/
theorem after_closest (id target : Id) (ops : List Op) :
    ∃ l : List Node, (after id ops).closest target = l.take maxBucketSizeK ∧
      l.Pairwise (fun m n => ClosestNodes.rank target m < ClosestNodes.rank target n) ∧
      ∀ n, n ∈ l ↔ ClosestNodes.Unshadowed (after id ops).nodes n := by
  have h := wellPlaced_after id ops
  have hsorted := (ClosestNodes.sorted_new target).addAll (after id ops).listed
  have htarget := ClosestNodes.target_addAll (ClosestNodes.new target) (after id ops).listed
  refine ⟨((after id ops).closestNodes target).nodes, ?_, ?_, ?_⟩
  · rw [closest, ← List.take_take, List.take_length]
  · have hranks := hsorted.ranks
    rw [htarget] at hranks
    exact hranks
  · intro n
    rw [h.nodes_eq]
    exact ClosestNodes.mem_addAll_new h.nodup_listed h.pairwise_listed

end RoutingTable

end Nerea.Mainline
