import Nerea.Mainline.Node
import Nerea.Shared.Run
import Mathlib.Data.List.Nodup
import Mathlib.Data.List.Dedup
import Mathlib.Logic.Function.Basic

/-!
# The routing table

Nodes lie in the bucket of their distance to our own id. A bucket holds at most twenty nodes
and no id twice. Since a node is refused when one of its IP is insecure or begins as it does,
all nodes of the table get along, and an IP has few of them. For the same reason no node is
ever replaced by a later one of the same id and IP: it stays as old as it is until it goes.
-/

set_option autoImplicit false

namespace Nerea.Mainline

def maxBucketSizeK : ℕ := 20

/-- `KBucket`, the node first added in front. -/
structure KBucket where
  nodes : List Node
  size_le : nodes.length ≤ maxBucketSizeK
  nodup : (nodes.map Node.id).Nodup

namespace KBucket

/-- The body of `add`: the nodes after it and whether the incoming one was taken. -/
def added (now : ℕ) (nodes : List Node) (incoming : Node) : List Node × Bool :=
  match nodes.findIdx? (fun n => n.id = incoming.id) with
  | some index =>
    match nodes[index]? with
    | some existing =>
      if incoming.isSecure || (!existing.isSecure && existing.sameIp incoming) then
        (nodes.eraseIdx index ++ [incoming], true)
      else (nodes, false)
    | none => (nodes, false)
  | none =>
    if nodes.length < maxBucketSizeK then (nodes ++ [incoming], true)
    else
      match nodes with
      | head :: rest =>
        if head.isStale now then (rest ++ [incoming], true) else (nodes, false)
      | [] => (nodes, false)

/-- A node that is taken comes last, after nodes of other ids that were there before. -/
theorem added_cases (now : ℕ) {nodes : List Node} (incoming : Node)
    (hsize : nodes.length ≤ maxBucketSizeK) (hnodup : (nodes.map Node.id).Nodup) :
    added now nodes incoming = (nodes, false) ∨
    ∃ kept, added now nodes incoming = (kept ++ [incoming], true) ∧ kept.Sublist nodes ∧
      (∀ m ∈ kept, m.id ≠ incoming.id) ∧ kept.length < maxBucketSizeK := by
  unfold added
  split
  · rename_i index hindex
    obtain ⟨hlt, hid, -⟩ := List.findIdx?_eq_some_iff_getElem.mp hindex
    rw [decide_eq_true_iff] at hid
    rw [List.getElem?_eq_getElem hlt]
    simp only
    split
    · refine Or.inr ⟨nodes.eraseIdx index, rfl, List.eraseIdx_sublist nodes index, ?_, ?_⟩
      · intro m hm hmid
        obtain ⟨i, hi, hne, rfl⟩ := List.mem_eraseIdx_iff_getElem.mp hm
        have hsame := List.inj_on_of_nodup_map hnodup (List.getElem_mem hi)
          (List.getElem_mem hlt) (hmid.trans hid.symm)
        exact hne ((List.Nodup.getElem_inj_iff (hnodup.of_map Node.id)).mp hsame)
      · rw [List.length_eraseIdx_of_lt hlt]
        omega
    · exact Or.inl rfl
  · rename_i hnone
    have hids : ∀ m ∈ nodes, m.id ≠ incoming.id := by
      intro m hm hmid
      have hm' := List.findIdx?_eq_none_iff.mp hnone m hm
      exact absurd hmid (of_decide_eq_false hm')
    split
    · exact Or.inr ⟨nodes, rfl, List.Sublist.refl nodes, hids, ‹_›⟩
    · split
      · rename_i head rest _
        split
        · refine Or.inr ⟨rest, rfl, List.sublist_cons_self head rest, ?_, ?_⟩
          · exact fun m hm => hids m (List.mem_cons_of_mem head hm)
          · exact hsize
        · exact Or.inl rfl
      · exact Or.inl rfl

def empty : KBucket := ⟨[], Nat.zero_le _, List.nodup_nil⟩

theorem length_added_le (now : ℕ) (b : KBucket) (incoming : Node) :
    (added now b.nodes incoming).1.length ≤ maxBucketSizeK := by
  rcases added_cases now incoming b.size_le b.nodup with h | ⟨kept, h, -, -, hlen⟩
  · rw [h]
    exact b.size_le
  · rw [h, List.length_append]
    exact hlen

theorem nodup_added (now : ℕ) (b : KBucket) (incoming : Node) :
    ((added now b.nodes incoming).1.map Node.id).Nodup := by
  rcases added_cases now incoming b.size_le b.nodup with h | ⟨kept, h, hsub, hids, -⟩
  · rw [h]
    exact b.nodup
  · rw [h, List.map_append, List.nodup_append]
    refine ⟨b.nodup.sublist (hsub.map Node.id), List.nodup_singleton _, ?_⟩
    intro id hid id' hid'
    obtain ⟨m, hm, rfl⟩ := List.mem_map.mp hid
    rw [List.mem_singleton.mp hid']
    exact hids m hm

def add (now : ℕ) (b : KBucket) (incoming : Node) : KBucket × Bool :=
  (⟨(added now b.nodes incoming).1, length_added_le now b incoming, nodup_added now b incoming⟩,
    (added now b.nodes incoming).2)

/-- `retain` the nodes of other ids. -/
def remove (b : KBucket) (nodeId : Id) : KBucket where
  nodes := b.nodes.filter (fun node => node.id ≠ nodeId)
  size_le := Nat.le_trans (List.length_filter_le _ _) b.size_le
  nodup := b.nodup.sublist (List.filter_sublist.map Node.id)

end KBucket

/-- An absent bucket is an empty one. -/
structure RoutingTable where
  id : Id
  buckets : ℕ → KBucket

namespace RoutingTable

variable (t : RoutingTable)

def new (id : Id) : RoutingTable := ⟨id, fun _ => KBucket.empty⟩

/-- `buckets.values()`, in the order of the keys. -/
def values : List KBucket := (List.range 256).map t.buckets

def setBucket (distance : ℕ) (bucket : KBucket) : RoutingTable :=
  { t with buckets := Function.update t.buckets distance bucket }

def add (now : ℕ) (node : Node) : RoutingTable × Bool :=
  let distance := t.id.distance node.id
  if distance = 0 then (t, false)
  else if t.values.any (fun bucket => node.alreadyExists bucket.nodes) then (t, false)
  else
    let (bucket, taken) := (t.buckets distance).add now node
    (t.setBucket distance bucket, taken)

def remove (nodeId : Id) : RoutingTable :=
  let distance := t.id.distance nodeId
  t.setBucket distance ((t.buckets distance).remove nodeId)

def isEmpty : Bool := t.values.all (fun bucket => bucket.nodes.isEmpty)

def size : ℕ := t.values.foldl (fun acc bucket => acc + bucket.nodes.length) 0

/-- `RoutingTableIterator::next`: the node and where the next one is looked for. The loop
takes a turn for every bucket that is passed. -/
def next : ℕ → ℕ → ℕ → Option (Node × ℕ × ℕ)
  | 0, _, _ => none
  | turns + 1, bucketIndex, nodeIndex =>
    if bucketIndex ≤ 160 then
      match (t.buckets bucketIndex).nodes[nodeIndex]? with
      | some node =>
        if nodeIndex + 1 = (t.buckets bucketIndex).nodes.length then
          some (node, bucketIndex + 1, 0)
        else some (node, bucketIndex, nodeIndex + 1)
      | none => next turns (bucketIndex + 1) nodeIndex
    else none

def collect : ℕ → ℕ → ℕ → List Node
  | 0, _, _ => []
  | calls + 1, bucketIndex, nodeIndex =>
    match t.next 161 bucketIndex nodeIndex with
    | some (node, bucketIndex, nodeIndex) => node :: collect calls bucketIndex nodeIndex
    | none => []

/-- `nodes().collect()`; there is one call more than there are nodes. -/
def nodes : List Node := t.collect (t.size + 1) 1 0

/-- The nodes of the buckets in order. -/
def listed : List Node := t.values.flatMap KBucket.nodes

/-- Every node lies at its distance, which is not zero, and all of them get along. -/
structure WellPlaced : Prop where
  placed : ∀ d n, n ∈ (t.buckets d).nodes → t.id.distance n.id = d ∧ 0 < d
  getAlong : ∀ d e m n, m ∈ (t.buckets d).nodes → n ∈ (t.buckets e).nodes → m ≠ n →
    m.GetsAlong n

variable {t}

theorem wellPlaced_new (id : Id) : (new id).WellPlaced where
  placed := fun _ _ hn => absurd hn List.not_mem_nil
  getAlong := fun _ _ _ _ hm => absurd hm List.not_mem_nil

theorem WellPlaced.le_of_mem (h : t.WellPlaced) {d : ℕ} {n : Node}
    (hn : n ∈ (t.buckets d).nodes) : d ≤ 160 := by
  rw [← (h.placed d n hn).1]
  exact Id.distance_le t.id n.id

theorem mem_listed {n : Node} : n ∈ t.listed ↔ ∃ d < 256, n ∈ (t.buckets d).nodes := by
  simp only [listed, values, List.mem_flatMap, List.mem_map, List.mem_range]
  constructor
  · rintro ⟨bucket, ⟨d, hd, rfl⟩, hn⟩
    exact ⟨d, hd, hn⟩
  · rintro ⟨d, hd, hn⟩
    exact ⟨t.buckets d, ⟨d, hd, rfl⟩, hn⟩

theorem WellPlaced.mem_listed (h : t.WellPlaced) {n : Node} :
    n ∈ t.listed ↔ n ∈ (t.buckets (t.id.distance n.id)).nodes := by
  rw [RoutingTable.mem_listed]
  constructor
  · rintro ⟨d, -, hn⟩
    rw [(h.placed d n hn).1]
    exact hn
  · intro hn
    exact ⟨_, Nat.lt_of_le_of_lt (h.le_of_mem hn) (by decide), hn⟩

theorem setBucket_self (d : ℕ) : t.setBucket d (t.buckets d) = t := by
  rw [setBucket, Function.update_eq_self]

/-- The table stays as it is, or takes a node that none of its nodes is in the way of. The
node comes last in its bucket, after nodes of other ids that were there before. -/
theorem add_cases (t : RoutingTable) (now : ℕ) (node : Node) :
    t.add now node = (t, false) ∨
    (t.id.distance node.id ≠ 0 ∧ node.alreadyExists t.listed = false ∧
      ∃ kept bucket, t.add now node = (t.setBucket (t.id.distance node.id) bucket, true) ∧
        bucket.nodes = kept ++ [node] ∧
        kept.Sublist (t.buckets (t.id.distance node.id)).nodes ∧
        ∀ m ∈ kept, m.id ≠ node.id) := by
  unfold add
  simp only
  split
  · exact Or.inl rfl
  · rename_i hzero
    split
    · exact Or.inl rfl
    · rename_i hany
      have hexists : node.alreadyExists t.listed = false := by
        rw [Bool.not_eq_true, List.any_eq_false] at hany
        rw [Node.alreadyExists_eq_false]
        intro m hm
        obtain ⟨bucket, hbucket, hm⟩ := List.mem_flatMap.mp hm
        have hfree := hany bucket hbucket
        rw [Bool.not_eq_true] at hfree
        exact Node.alreadyExists_eq_false.mp hfree m hm
      rcases KBucket.added_cases now node (t.buckets (t.id.distance node.id)).size_le
        (t.buckets (t.id.distance node.id)).nodup with h | ⟨kept, h, hsub, hids, -⟩
      · left
        have hsame : (t.buckets (t.id.distance node.id)).add now node
            = (t.buckets (t.id.distance node.id), false) := by
          simp only [KBucket.add, h]
        rw [hsame, setBucket_self]
      · right
        have htaken : ((t.buckets (t.id.distance node.id)).add now node).2 = true :=
          congrArg Prod.snd h
        have hnodes : ((t.buckets (t.id.distance node.id)).add now node).1.nodes = kept ++ [node] :=
          congrArg Prod.fst h
        refine ⟨hzero, hexists, kept, _, ?_, hnodes, hsub, hids⟩
        rw [htaken]

theorem setBucket_same (d : ℕ) (bucket : KBucket) : (t.setBucket d bucket).buckets d = bucket := by
  simp only [setBucket, Function.update_self]

theorem setBucket_other {d e : ℕ} (bucket : KBucket) (h : e ≠ d) :
    (t.setBucket d bucket).buckets e = t.buckets e := by
  simp only [setBucket, Function.update_of_ne h]

/-- A bucket of nodes that were there before. -/
theorem WellPlaced.setBucket_sublist (h : t.WellPlaced) {d : ℕ} {bucket : KBucket}
    (hsub : bucket.nodes.Sublist (t.buckets d).nodes) : (t.setBucket d bucket).WellPlaced := by
  have hmem : ∀ e n, n ∈ ((t.setBucket d bucket).buckets e).nodes → n ∈ (t.buckets e).nodes := by
    intro e n hn
    by_cases he : e = d
    · subst he
      rw [setBucket_same] at hn
      exact hsub.subset hn
    · rw [setBucket_other bucket he] at hn
      exact hn
  exact ⟨fun e n hn => h.placed e n (hmem e n hn),
    fun e f m n hm hn => h.getAlong e f m n (hmem e m hm) (hmem f n hn)⟩

theorem WellPlaced.add (h : t.WellPlaced) (now : ℕ) (node : Node) :
    (t.add now node).1.WellPlaced := by
  rcases add_cases t now node with heq | ⟨hzero, hexists, kept, bucket, heq, hnodes, hsub, -⟩
  · rw [heq]
    exact h
  · rw [heq]
    -- a node of the new table is the new one or was there before
    have hmem : ∀ e n, n ∈ ((t.setBucket (t.id.distance node.id) bucket).buckets e).nodes →
        (n = node ∧ e = t.id.distance node.id) ∨ n ∈ (t.buckets e).nodes := by
      intro e n hn
      by_cases he : e = t.id.distance node.id
      · subst he
        rw [setBucket_same, hnodes, List.mem_append, List.mem_singleton] at hn
        rcases hn with hn | hn
        · exact Or.inr (hsub.subset hn)
        · exact Or.inl ⟨hn, rfl⟩
      · rw [setBucket_other bucket he] at hn
        exact Or.inr hn
    have hnew : ∀ e n, n ∈ (t.buckets e).nodes → node.GetsAlong n := by
      intro e n hn
      have hlt := Nat.lt_of_le_of_lt (h.le_of_mem hn) (by decide : 160 < 256)
      exact Node.getsAlong_of_alreadyExists hexists (RoutingTable.mem_listed.mpr ⟨e, hlt, hn⟩)
    refine ⟨?_, ?_⟩
    · intro e n hn
      rcases hmem e n hn with ⟨rfl, rfl⟩ | hn
      · exact ⟨rfl, Nat.pos_of_ne_zero hzero⟩
      · exact h.placed e n hn
    · intro e f m n hm hn hne
      rcases hmem e m hm with ⟨hm', -⟩ | hm'
      · rcases hmem f n hn with ⟨hn', -⟩ | hn'
        · exact absurd (hm'.trans hn'.symm) hne
        · rw [hm']
          exact hnew f n hn'
      · rcases hmem f n hn with ⟨hn', -⟩ | hn'
        · rw [hn']
          exact Node.getsAlong_symm (hnew e m hm')
        · exact h.getAlong e f m n hm' hn' hne

theorem WellPlaced.remove (h : t.WellPlaced) (nodeId : Id) : (t.remove nodeId).WellPlaced :=
  h.setBucket_sublist List.filter_sublist

/-- What happens to a table. -/
inductive Op where
  | add (now : ℕ) (node : Node)
  | remove (nodeId : Id)

def step (t : RoutingTable) : Op → RoutingTable
  | .add now node => (t.add now node).1
  | .remove nodeId => t.remove nodeId

theorem WellPlaced.step (h : t.WellPlaced) (op : Op) : (t.step op).WellPlaced := by
  cases op with
  | add now node => exact h.add now node
  | remove nodeId => exact h.remove nodeId

theorem wellPlaced_run (id : Id) (ops : List Op) :
    (Run.run RoutingTable.step (new id) ops).WellPlaced :=
  Run.invariant (P := WellPlaced) (fun _ op h => h.step op) (wellPlaced_new id) ops

theorem id_step (t : RoutingTable) (op : Op) : (t.step op).id = t.id := by
  cases op with
  | add now node =>
    rcases add_cases t now node with heq | ⟨-, -, kept, bucket, heq, -⟩
    · rw [step, heq]
    · rw [step, heq]
      rfl
  | remove nodeId => rfl

theorem id_run (t : RoutingTable) (ops : List Op) : (Run.run RoutingTable.step t ops).id = t.id :=
  Run.invariant (P := fun s => s.id = t.id) (fun s op h => (id_step s op).trans h) rfl ops

/-- No id is in the table twice. -/
theorem WellPlaced.nodup_listed (h : t.WellPlaced) : (t.listed.map Node.id).Nodup := by
  rw [listed, List.map_flatMap, values, List.flatMap_map, List.nodup_flatMap]
  refine ⟨fun d _ => (t.buckets d).nodup, ?_⟩
  apply List.Pairwise.imp _ List.nodup_range
  intro d e hne
  refine List.disjoint_left.mpr ?_
  intro id hd he
  obtain ⟨m, hm, rfl⟩ := List.mem_map.mp hd
  obtain ⟨n, hn, heq⟩ := List.mem_map.mp he
  apply hne
  rw [← (h.placed d m hm).1, ← (h.placed e n hn).1, heq]

theorem size_eq (t : RoutingTable) : t.size = t.listed.length := by
  have hfold : ∀ (bs : List KBucket) (acc : ℕ),
      bs.foldl (fun acc bucket => acc + bucket.nodes.length) acc
        = acc + (bs.flatMap KBucket.nodes).length := by
    intro bs
    induction bs with
    | nil => exact fun acc => (Nat.add_zero acc).symm
    | cons b bs ih =>
      intro acc
      rw [List.foldl_cons, ih, List.flatMap_cons, List.length_append, Nat.add_assoc]
  rw [size, hfold, Nat.zero_add, listed]

end RoutingTable

end Nerea.Mainline
