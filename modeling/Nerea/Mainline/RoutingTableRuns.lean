import Nerea.Mainline.RoutingTable

/-!
# What every run leaves in the routing table

The iterator gives every node once, bucket by bucket. An address that is not exempt has at most
nine nodes in the table, eight secure ones and one that is not. A node is never made younger,
so the maintenance that purges stale nodes leaves none that is older than fifteen minutes.
-/

set_option autoImplicit false

namespace Nerea.Mainline.RoutingTable

variable {t : RoutingTable}

/-- What the iterator has still to give. -/
def remaining (t : RoutingTable) (bucketIndex nodeIndex : ℕ) : List Node :=
  (t.buckets bucketIndex).nodes.drop nodeIndex ++
    (List.range' (bucketIndex + 1) (160 - bucketIndex)).flatMap (fun d => (t.buckets d).nodes)

theorem remaining_next_bucket (t : RoutingTable) {b : ℕ} (hb : b < 160) :
    (List.range' (b + 1) (160 - b)).flatMap (fun d => (t.buckets d).nodes)
      = t.remaining (b + 1) 0 := by
  have hlen : 160 - b = (160 - (b + 1)) + 1 := by omega
  rw [hlen, List.range'_succ, List.flatMap_cons]
  rfl

theorem WellPlaced.bucket_eq_nil (h : t.WellPlaced) {d : ℕ} (hd : 160 < d ∨ d = 0) :
    (t.buckets d).nodes = [] := by
  apply List.eq_nil_iff_forall_not_mem.mpr
  intro n hn
  have hle := h.le_of_mem hn
  have hpos := (h.placed d n hn).2
  omega

theorem WellPlaced.remaining_last (h : t.WellPlaced) {b : ℕ} (hb : 160 < b) (i : ℕ) :
    t.remaining b i = [] := by
  have hlen : 160 - b = 0 := by omega
  rw [remaining, h.bucket_eq_nil (Or.inl hb), hlen, List.drop_nil]
  rfl

theorem WellPlaced.remaining_eq (h : t.WellPlaced) {b : ℕ} (hb : b ≤ 160) (i : ℕ) :
    t.remaining b i = (t.buckets b).nodes.drop i ++ t.remaining (b + 1) 0 := by
  rw [remaining]
  rcases Nat.lt_or_ge b 160 with hlt | hge
  · rw [remaining_next_bucket t hlt]
  · have hlen : 160 - b = 0 := by omega
    rw [h.remaining_last (Nat.lt_succ_of_le hge), hlen]
    rfl

/-- A call gives the first of the remaining nodes, or there is none. -/
theorem WellPlaced.next_spec (h : t.WellPlaced) (turns : ℕ) {b i : ℕ} (hturns : 161 ≤ turns + b)
    (hi : i = 0 ∨ i < (t.buckets b).nodes.length) :
    (t.next turns b i = none ∧ t.remaining b i = []) ∨
    ∃ n b' i', t.next turns b i = some (n, b', i') ∧
      t.remaining b i = n :: t.remaining b' i' ∧
      (i' = 0 ∨ i' < (t.buckets b').nodes.length) := by
  induction turns generalizing b i with
  | zero => exact Or.inl ⟨rfl, h.remaining_last (by omega) i⟩
  | succ turns ih =>
    unfold next
    by_cases hb : b ≤ 160
    · rw [if_pos hb]
      cases hget : (t.buckets b).nodes[i]? with
      | some n =>
        obtain ⟨hlt, hn⟩ := List.getElem?_eq_some_iff.mp hget
        right
        simp only
        by_cases hend : i + 1 = (t.buckets b).nodes.length
        · rw [if_pos hend]
          refine ⟨n, b + 1, 0, rfl, ?_, Or.inl rfl⟩
          rw [h.remaining_eq hb, List.drop_eq_getElem_cons hlt, hn, hend, List.drop_length]
          rfl
        · rw [if_neg hend]
          refine ⟨n, b, i + 1, rfl, ?_, Or.inr (by omega)⟩
          rw [h.remaining_eq hb, h.remaining_eq hb, List.drop_eq_getElem_cons hlt, hn,
            List.cons_append]
      | none =>
        have hge := List.getElem?_eq_none_iff.mp hget
        have hzero : i = 0 := by omega
        subst hzero
        have hpass : t.remaining b 0 = t.remaining (b + 1) 0 := by
          rw [h.remaining_eq hb, List.drop_of_length_le hge, List.nil_append]
        rw [hpass]
        exact ih (by omega) (Or.inl rfl)
    · rw [if_neg hb]
      exact Or.inl ⟨rfl, h.remaining_last (by omega) i⟩

theorem WellPlaced.collect_eq (h : t.WellPlaced) {calls b i : ℕ}
    (hcalls : (t.remaining b i).length < calls)
    (hi : i = 0 ∨ i < (t.buckets b).nodes.length) : t.collect calls b i = t.remaining b i := by
  induction calls generalizing b i with
  | zero => exact absurd hcalls (Nat.not_lt_zero _)
  | succ calls ih =>
    rw [collect]
    rcases h.next_spec 161 (by omega) hi with ⟨hnext, hnil⟩ | ⟨n, b', i', hnext, hcons, hi'⟩
    · rw [hnext, hnil]
    · rw [hcons, List.length_cons] at hcalls
      rw [hnext, hcons]
      exact congrArg (n :: ·) (ih (Nat.lt_of_succ_lt_succ hcalls) hi')

/-- The iterator gives the nodes of the buckets in order, and ends after them. -/
theorem WellPlaced.nodes_eq (h : t.WellPlaced) : t.nodes = t.listed := by
  have hrange : List.range 256 = 0 :: List.range' 1 160 ++ List.range' 161 95 := by
    rw [List.cons_append, List.range'_append_1, List.range_eq_range', List.range'_succ]
  have hlisted : t.listed = t.remaining 1 0 := by
    rw [listed, values, List.flatMap_map, hrange, List.cons_append, List.flatMap_cons,
      h.bucket_eq_nil (Or.inr rfl), List.nil_append, List.flatMap_append]
    have hbeyond : (List.range' 161 95).flatMap (fun d => (t.buckets d).nodes) = [] := by
      apply List.flatMap_eq_nil_iff.mpr
      intro d hd
      obtain ⟨hd, -⟩ := List.mem_range'_1.mp hd
      exact h.bucket_eq_nil (Or.inl hd)
    rw [hbeyond, List.append_nil]
    rfl
  rw [nodes, size_eq, hlisted]
  exact h.collect_eq (Nat.lt_succ_self _) (Or.inl rfl)

theorem mem_remove (h : t.WellPlaced) {nodeId : Id} {n : Node} :
    n ∈ (t.remove nodeId).listed ↔ n ∈ t.listed ∧ n.id ≠ nodeId := by
  rw [(h.remove nodeId).mem_listed, h.mem_listed]
  have hid : (t.remove nodeId).id = t.id := rfl
  rw [hid, remove]
  by_cases hd : t.id.distance n.id = t.id.distance nodeId
  · rw [hd, setBucket_same, KBucket.remove, List.mem_filter, decide_eq_true_iff]
  · rw [setBucket_other _ hd]
    constructor
    · exact fun hn => ⟨hn, fun heq => hd (by rw [heq])⟩
    · exact fun hn => hn.1

/-- The nodes after an `add` are the new one, that nothing was in the way of, and old ones. -/
theorem mem_add {now : ℕ} {node n : Node} (hn : n ∈ (t.add now node).1.listed) :
    n ∈ t.listed ∨ (n = node ∧ node.alreadyExists t.listed = false) := by
  rcases add_cases t now node with heq | ⟨-, hexists, kept, bucket, heq, hnodes, hsub, -⟩
  · rw [heq] at hn
    exact Or.inl hn
  · rw [heq] at hn
    obtain ⟨d, hd, hn⟩ := mem_listed.mp hn
    by_cases hdist : d = t.id.distance node.id
    · subst hdist
      rw [setBucket_same, hnodes, List.mem_append, List.mem_singleton] at hn
      rcases hn with hn | hn
      · exact Or.inl (mem_listed.mpr ⟨_, hd, hsub.subset hn⟩)
      · exact Or.inr ⟨hn, hexists⟩
    · rw [setBucket_other bucket hdist] at hn
      exact Or.inl (mem_listed.mpr ⟨d, hd, hn⟩)

theorem WellPlaced.eq_of_id_eq (h : t.WellPlaced) {m n : Node} (hm : m ∈ t.listed)
    (hn : n ∈ t.listed) (hid : m.id = n.id) : m = n :=
  List.inj_on_of_nodup_map h.nodup_listed hm hn hid

/-- A node of the same id and IP is never taken. -/
theorem add_eq_self_of_same (now : ℕ) (node : Node) {n : Node} (hn : n ∈ t.listed)
    (hid : node.id = n.id) (hip : node.address.ip = n.address.ip) :
    t.add now node = (t, false) := by
  rcases add_cases t now node with heq | ⟨-, hexists, -⟩
  · exact heq
  · rw [Node.alreadyExists_of_same hn hid hip] at hexists
    cases hexists

/-- There is a node of the id and the IP of this one. -/
def Knows (t : RoutingTable) (n : Node) : Prop :=
  ∃ m ∈ t.listed, m.id = n.id ∧ m.address.ip = n.address.ip

theorem always_knows (now : ℕ) (node : Node) {n : Node} (hn : n ∈ t.listed)
    (hid : node.id = n.id) (hip : node.address.ip = n.address.ip) :
    Run.Always step (fun s => s.Knows n) t [.add now node] := by
  have hstep : t.step (.add now node) = t :=
    congrArg Prod.fst (add_eq_self_of_same now node hn hid hip)
  have hknows : t.Knows n := ⟨n, hn, rfl, rfl⟩
  refine ⟨hknows, ?_⟩
  rw [hstep]
  exact hknows

/-- As long as its id and IP are known, a node stays the one it was. -/
theorem WellPlaced.mem_step (h : t.WellPlaced) {n : Node} (hn : n ∈ t.listed) {op : Op}
    (hknows : (t.step op).Knows n) : n ∈ (t.step op).listed := by
  obtain ⟨m, hm, hid, hip⟩ := hknows
  have hold : m ∈ t.listed := by
    cases op with
    | add now node =>
      rcases mem_add hm with hold | ⟨rfl, hexists⟩
      · exact hold
      · rw [Node.alreadyExists_of_same hn hid hip] at hexists
        cases hexists
    | remove nodeId => exact ((mem_remove h).mp hm).1
  rw [← h.eq_of_id_eq hold hn hid]
  exact hm

theorem WellPlaced.mem_run (h : t.WellPlaced) {n : Node} (hn : n ∈ t.listed) {ops : List Op}
    (hknows : Run.Always RoutingTable.step (fun s => s.Knows n) t ops) :
    n ∈ (Run.run RoutingTable.step t ops).listed := by
  induction ops generalizing t with
  | nil => exact hn
  | cons op ops ih => exact ih (h.step op) (h.mem_step hn hknows.2.head) hknows.2

/-- `purge_and_ping_candidates`, over the nodes the iterator gives. -/
def candidates (now : ℕ) : List Node → List Id × List SocketAddrV4
  | [] => ([], [])
  | node :: nodes =>
    let rest := candidates now nodes
    if node.isStale now then (node.id :: rest.1, rest.2)
    else if node.shouldPing now then (rest.1, node.address :: rest.2)
    else rest

def purgeAndPingCandidates (t : RoutingTable) (now : ℕ) : List Id × List SocketAddrV4 :=
  candidates now t.nodes

def purgeNodes (t : RoutingTable) (ids : List Id) : RoutingTable := ids.foldl remove t

theorem candidates_fst (now : ℕ) (nodes : List Node) :
    (candidates now nodes).1 = (nodes.filter (fun n => n.isStale now)).map Node.id := by
  induction nodes with
  | nil => rfl
  | cons node nodes ih =>
    rw [candidates, List.filter_cons]
    split
    · rw [List.map_cons, ← ih]
    · rw [← ih]
      split <;> rfl

theorem mem_purgeNodes (h : t.WellPlaced) {ids : List Id} {n : Node} :
    n ∈ (t.purgeNodes ids).listed ↔ n ∈ t.listed ∧ n.id ∉ ids := by
  induction ids generalizing t with
  | nil => simp [RoutingTable.purgeNodes]
  | cons id ids ih =>
    have hcons : t.purgeNodes (id :: ids) = (t.remove id).purgeNodes ids := rfl
    rw [hcons, ih (h.remove id), mem_remove h, List.mem_cons, not_or, and_assoc]

/-- The purge takes exactly the stale nodes out. -/
theorem mem_purge (h : t.WellPlaced) {now : ℕ} {n : Node} :
    n ∈ (t.purgeNodes (t.purgeAndPingCandidates now).1).listed ↔
      n ∈ t.listed ∧ n.isStale now = false := by
  rw [mem_purgeNodes h, purgeAndPingCandidates, candidates_fst, h.nodes_eq]
  constructor
  · rintro ⟨hn, hnot⟩
    refine ⟨hn, Bool.eq_false_iff.mpr (fun hstale => hnot ?_)⟩
    exact List.mem_map_of_mem (List.mem_filter.mpr ⟨hn, hstale⟩)
  · rintro ⟨hn, hfresh⟩
    refine ⟨hn, ?_⟩
    intro hmem
    obtain ⟨m, hm, hid⟩ := List.mem_map.mp hmem
    obtain ⟨hm, hstale⟩ := List.mem_filter.mp hm
    rw [h.eq_of_id_eq hm hn hid, hfresh] at hstale
    cases hstale

theorem WellPlaced.pairwise_listed (h : t.WellPlaced) : t.listed.Pairwise Node.GetsAlong := by
  apply List.Pairwise.imp_of_mem _ (h.nodup_listed.of_map Node.id)
  intro m n hm hn hne
  obtain ⟨d, -, hm⟩ := RoutingTable.mem_listed.mp hm
  obtain ⟨e, -, hn⟩ := RoutingTable.mem_listed.mp hn
  exact h.getAlong d e m n hm hn hne

/-- The table of a node of this id after a run. -/
def after (id : Id) (ops : List Op) : RoutingTable := Run.run step (new id) ops

theorem wellPlaced_after (id : Id) (ops : List Op) : (after id ops).WellPlaced :=
  wellPlaced_run id ops

/-- After any run: the nodes lie in the buckets of their distance, our own id is in none of
them, a bucket has at most twenty, no id is there twice, and the iterator and the size count
every node once. -/
theorem after_wellFormed (id : Id) (ops : List Op) :
    (∀ d n, n ∈ ((after id ops).buckets d).nodes →
      id.distance n.id = d ∧ 0 < d ∧ d ≤ maxDistance ∧ n.id ≠ id) ∧
    (∀ d, ((after id ops).buckets d).nodes.length ≤ maxBucketSizeK) ∧
    ((after id ops).nodes.map Node.id).Nodup ∧
    (∀ n, n ∈ (after id ops).nodes ↔ ∃ d, n ∈ ((after id ops).buckets d).nodes) ∧
    (after id ops).size = (after id ops).nodes.length := by
  have h := wellPlaced_after id ops
  have hid : (after id ops).id = id := id_run (new id) ops
  refine ⟨?_, fun d => ((after id ops).buckets d).size_le, ?_, ?_, ?_⟩
  · intro d n hn
    obtain ⟨hd, hpos⟩ := h.placed d n hn
    rw [hid] at hd
    refine ⟨hd, hpos, hd ▸ Id.distance_le id n.id, ?_⟩
    intro hself
    have hzero := Id.distance_eq_zero.mpr hself.symm
    omega
  · rw [h.nodes_eq]
    exact h.nodup_listed
  · intro n
    rw [h.nodes_eq, mem_listed]
    constructor
    · rintro ⟨d, -, hn⟩
      exact ⟨d, hn⟩
    · rintro ⟨d, hn⟩
      exact ⟨d, Nat.lt_of_le_of_lt (h.le_of_mem hn) (by decide), hn⟩
  · rw [size_eq, h.nodes_eq]

/-- After any run an IP that is not exempt has at most eight secure nodes in the table, and
at most one that is not secure beside them. -/
theorem after_atIp (id : Id) (ops : List Op) (ip : Ipv4Addr) (hip : ¬ Id.Exempt ip) :
    ((Node.atIp (after id ops).nodes ip).filter Node.isSecure).length ≤ 8 ∧
    ((Node.atIp (after id ops).nodes ip).filter (fun n => !n.isSecure)).length ≤ 1 ∧
    (Node.atIp (after id ops).nodes ip).length ≤ 9 ∧
    (Node.atIp (after id ops).nodes ip).Pairwise (fun m n => m.first21Bits ≠ n.first21Bits) := by
  have h := (wellPlaced_after id ops).pairwise_listed
  rw [(wellPlaced_after id ops).nodes_eq]
  exact ⟨Node.secure_le_eight h ip hip, Node.insecure_le_one h ip, Node.atIp_le_nine h ip hip,
    (Node.pairwise_atIp h ip).imp And.left⟩

def zeroId : Id := ⟨List.replicate idSize 0, List.length_replicate⟩

def oneId : Id := ⟨1 :: List.replicate 19 0, rfl⟩

/-- A secure node and an insecure one at the same IP. -/
def sameIpOps : List Op :=
  [.add 0 (.new (Id.fromIpv4AndR zeroId ⟨8, 8, 8, 8⟩ 1) ⟨⟨8, 8, 8, 8⟩, 53⟩ 0),
    .add 0 (.new oneId ⟨⟨8, 8, 8, 8⟩, 54⟩ 0)]

theorem after_atIp_public :
    (Node.atIp (after zeroId sameIpOps).nodes ⟨8, 8, 8, 8⟩).length = 2 ∧
    ((Node.atIp (after zeroId sameIpOps).nodes ⟨8, 8, 8, 8⟩).filter
      (fun n => !n.isSecure)).length = 1 ∧
    (Node.atIp (after zeroId sameIpOps).nodes ⟨8, 8, 8, 8⟩).Pairwise
      (fun m n => m.first21Bits ≠ n.first21Bits) := by
  refine ⟨by decide +kernel, by decide +kernel, ?_⟩
  exact (after_atIp zeroId sameIpOps ⟨8, 8, 8, 8⟩ (by unfold Id.Exempt; decide)).2.2.2

/-- An empty table takes every node but our own. -/
theorem mem_add_new {id : Id} {now : ℕ} {node : Node} (hne : id ≠ node.id) :
    node ∈ ((new id).add now node).1.listed := by
  have hzero : (new id).id.distance node.id ≠ 0 := fun h => hne (Id.distance_eq_zero.mp h)
  have hany : (new id).values.any (fun bucket => node.alreadyExists bucket.nodes) = false := by
    rw [List.any_eq_false]
    intro bucket hbucket
    obtain ⟨d, -, rfl⟩ := List.mem_map.mp hbucket
    exact Bool.false_ne_true
  have hadd : (new id).add now node
      = ((new id).setBucket (id.distance node.id) (KBucket.empty.add now node).1, true) := by
    unfold add
    simp only
    rw [if_neg hzero, hany, if_neg Bool.false_ne_true]
    rfl
  rw [hadd, mem_listed]
  refine ⟨id.distance node.id, Nat.lt_of_le_of_lt (Id.distance_le _ _) (by decide), ?_⟩
  rw [setBucket_same]
  exact List.mem_singleton_self node

/-- A node that the table knows all through a run is still the record that was first taken,
however often its id and IP were added again, and the first purge after its time is over
takes it out. -/
theorem never_refreshed (id : Id) (before ops : List Op) (n : Node)
    (hn : n ∈ (after id before).listed)
    (hknows : Run.Always step (fun s => s.Knows n) (after id before) ops) :
    n ∈ (after id (before ++ ops)).listed ∧
    ∀ now, staleTime < now - n.lastSeen →
      ∀ m ∈ ((after id (before ++ ops)).purgeNodes
        ((after id (before ++ ops)).purgeAndPingCandidates now).1).listed, m.id ≠ n.id := by
  have hend : n ∈ (after id (before ++ ops)).listed := by
    rw [after, Run.run_append]
    exact (wellPlaced_after id before).mem_run hn hknows
  refine ⟨hend, ?_⟩
  intro now hold m hm hid
  have h := wellPlaced_after id (before ++ ops)
  obtain ⟨hm, hfresh⟩ := (mem_purge h).mp hm
  have hsame := h.eq_of_id_eq hm hend hid
  rw [hsame] at hfresh
  exact absurd hold (of_decide_eq_false hfresh)

/-- A node that answers again from another port of its IP. -/
theorem never_refreshed_lan :
    Node.new oneId ⟨⟨192, 168, 1, 7⟩, 6881⟩ 0 ∈
      (after zeroId ([.add 0 (.new oneId ⟨⟨192, 168, 1, 7⟩, 6881⟩ 0)] ++
        [.add 5 (.new oneId ⟨⟨192, 168, 1, 7⟩, 6882⟩ 5)])).listed := by
  have hmem : Node.new oneId ⟨⟨192, 168, 1, 7⟩, 6881⟩ 0 ∈
      (after zeroId [.add 0 (.new oneId ⟨⟨192, 168, 1, 7⟩, 6881⟩ 0)]).listed :=
    mem_add_new (by decide)
  have hknows := always_knows 5 (.new oneId ⟨⟨192, 168, 1, 7⟩, 6882⟩ 5) hmem rfl rfl
  exact (never_refreshed zeroId _ _ _ hmem hknows).1

end Nerea.Mainline.RoutingTable
