/-
Coalescing split peers after a netlink GET.

The kernel may spread one peer over several dump messages, and the decoder then holds
adjacent peers with the same public key.  `coalesce_peers` walks the chain once; where a
peer and its successor share a key it splices the successor's allowed-ips onto the peer
through `last_allowedip`, copies the successor's `last_allowedip`, and frees the
successor, staying on the same peer.

The specification's merge, `mergeRuns`, replaces each maximal run of equal keys by its
first peer holding the run's allowed-ips in order, `last_allowedip` on the last of them.
`coalescePeers_eq_mergeRuns` shows the code computes it when every peer that continues a
run brings at least one allowed-ip, which is what a split by message size produces.

Outside that case the splice is wrong.  When the successor's chain is empty its `NULL`
`last_allowedip` is copied onto a peer whose chain is not, so the merged peer's
`last_allowedip` no longer points to its last node (`coalescePeers_drops_last`); a third
peer in the same run then makes the loop dereference that `NULL`
(`coalescePeers_null_deref`).  The kernel emits such an empty continuation when the
allowed-ips change between two messages of the dump.
-/
import WireguardIpc.Netlink.Attr

namespace WireguardIpc

/-! ### Last pointers -/

/-- `last_allowedip` points to the last node of the peer's chain. -/
def Wgpeer.LastOK (p : Wgpeer) : Prop := p.lastAllowedip = lastIndex p.allowedips

instance : DecidablePred Wgpeer.LastOK := fun _ => inferInstanceAs (Decidable (_ = _))

/-! ### The code -/

/-- One merge step of `coalesce_peers`: `peer` takes over the chain of `next`.  `none`
where the C code writes through a `NULL` `last_allowedip`. -/
def mergeAllowedips (peer next : Wgpeer) : Option Wgpeer :=
  match peer.allowedips, peer.lastAllowedip with
  | [], _ => some { peer with allowedips := next.allowedips, lastAllowedip := next.lastAllowedip }
  | _ :: _, none => none
  | chain@(_ :: _), some j => some { peer with
      allowedips := chain.take (j + 1) ++ next.allowedips
      lastAllowedip := next.lastAllowedip.map (j + 1 + ·) }

/-- The loop of `coalesce_peers` with the cursor on `peer` and `rest` after it. -/
def coalesceFrom (peer : Wgpeer) : List Wgpeer → Option (List Wgpeer)
  | [] => some [peer]
  | next :: rest =>
    if peer.publicKey ≠ next.publicKey then (coalesceFrom next rest).map (peer :: ·)
    else (mergeAllowedips peer next).bind fun peer' => coalesceFrom peer' rest

/-- `coalesce_peers`.  `last_peer` is not updated, as in the C code. -/
def coalescePeers (device : Wgdevice) : Option Wgdevice :=
  match device.peers with
  | [] => some device
  | peer :: rest => (coalesceFrom peer rest).map fun peers => { device with peers := peers }

/-! ### The specification's merge -/

/-- A peer with its `last_allowedip` put on the last node. -/
def Wgpeer.relink (p : Wgpeer) : Wgpeer := { p with lastAllowedip := lastIndex p.allowedips }

/-- `p` followed by the allowed-ips of `q`. -/
def Wgpeer.absorb (p q : Wgpeer) : Wgpeer :=
  { p with allowedips := p.allowedips ++ q.allowedips
           lastAllowedip := lastIndex (p.allowedips ++ q.allowedips) }

/-- Each maximal run of adjacent peers with one public key becomes its first peer, with the
run's allowed-ips in order and `last_allowedip` on the last of them. -/
def mergeRuns : List Wgpeer → List Wgpeer
  | [] => []
  | p :: ps =>
    let run := ps.takeWhile (·.publicKey == p.publicKey)
    (run.foldl Wgpeer.absorb p.relink) :: mergeRuns (ps.dropWhile (·.publicKey == p.publicKey))
termination_by ps => ps.length
decreasing_by
  simp_wf
  exact Nat.lt_succ_of_le ((List.dropWhile_suffix _).length_le)

namespace Wgpeer

@[simp] theorem publicKey_absorb (p q : Wgpeer) : (p.absorb q).publicKey = p.publicKey := rfl
@[simp] theorem publicKey_relink (p : Wgpeer) : p.relink.publicKey = p.publicKey := rfl
theorem relink_absorb (p q : Wgpeer) : p.relink.absorb q = (p.absorb q).relink := rfl
theorem lastOK_absorb (p q : Wgpeer) : (p.absorb q).LastOK := rfl
theorem lastOK_relink (p : Wgpeer) : p.relink.LastOK := rfl

theorem relink_of_lastOK {p : Wgpeer} (h : p.LastOK) : p.relink = p := by
  cases p; simp_all [relink, LastOK]

theorem publicKey_foldl_absorb (run : List Wgpeer) (p : Wgpeer) :
    (run.foldl absorb p).publicKey = p.publicKey := by
  induction run generalizing p <;> simp [*]

/-- Absorbing a run appends its allowed-ips and touches nothing else but `last_allowedip`. -/
theorem foldl_absorb (run : List Wgpeer) (p : Wgpeer) :
    ∃ last, run.foldl absorb p =
      { p with allowedips := p.allowedips ++ run.flatMap (·.allowedips), lastAllowedip := last } := by
  induction run generalizing p with
  | nil => exact ⟨p.lastAllowedip, by simp⟩
  | cons q run ih =>
    obtain ⟨last, h⟩ := ih (p.absorb q)
    exact ⟨last, by rw [List.foldl_cons, h]; simp [absorb]⟩

theorem lastOK_foldl_absorb (run : List Wgpeer) {p : Wgpeer} (h : p.LastOK) :
    (run.foldl absorb p).LastOK := by
  induction run generalizing p with
  | nil => exact h
  | cons q run ih => exact ih (lastOK_absorb p q)

end Wgpeer

/-! ### The merge, run by run -/

theorem mergeRuns_single (p : Wgpeer) : mergeRuns [p] = [p.relink] := by
  rw [mergeRuns]; simp [mergeRuns]

theorem mergeRuns_cons_ne {p q : Wgpeer} (rest : List Wgpeer) (h : p.publicKey ≠ q.publicKey) :
    mergeRuns (p :: q :: rest) = p.relink :: mergeRuns (q :: rest) := by
  rw [mergeRuns]
  simp [List.takeWhile_cons, List.dropWhile_cons, Ne.symm h]

theorem mergeRuns_cons_eq {p q : Wgpeer} (rest : List Wgpeer) (h : p.publicKey = q.publicKey) :
    mergeRuns (p :: q :: rest) = mergeRuns (p.absorb q :: rest) := by
  rw [mergeRuns, mergeRuns]
  simp [List.takeWhile_cons, List.dropWhile_cons, h, Wgpeer.relink_absorb]

theorem mergeRuns_lastOK (ps : List Wgpeer) : ∀ p ∈ mergeRuns ps, p.LastOK := by
  induction ps using mergeRuns.induct with
  | case1 => simp [mergeRuns]
  | case2 p ps ih =>
    rw [mergeRuns]
    rintro q (_ | ⟨_, hq⟩)
    · exact Wgpeer.lastOK_foldl_absorb _ (Wgpeer.lastOK_relink p)
    · exact ih q hq

theorem head?_mergeRuns (ps : List Wgpeer) :
    (mergeRuns ps).head?.map (·.publicKey) = ps.head?.map (·.publicKey) := by
  cases ps with
  | nil => simp [mergeRuns]
  | cons p ps => rw [mergeRuns]; simp [Wgpeer.publicKey_foldl_absorb]

/-- No two adjacent peers of the merge share a public key. -/
theorem mergeRuns_chain (ps : List Wgpeer) :
    (mergeRuns ps).Chain' (fun p q => p.publicKey ≠ q.publicKey) := by
  induction ps using mergeRuns.induct with
  | case1 => simp [mergeRuns]
  | case2 p ps ih =>
    rw [mergeRuns, List.chain'_cons']
    refine ⟨fun q hq => ?_, ih⟩
    have hhead := head?_mergeRuns (ps.dropWhile (·.publicKey == p.publicKey))
    rw [hq, Option.map_some'] at hhead
    obtain ⟨r, hr, hrq⟩ := Option.map_eq_some'.mp hhead.symm
    have hrne : ps.dropWhile (·.publicKey == p.publicKey) ≠ [] := by
      intro h; simp [h] at hr
    have hne := List.head_dropWhile_not (·.publicKey == p.publicKey) ps hrne
    rw [List.head?_eq_head hrne, Option.some.injEq] at hr
    rw [Wgpeer.publicKey_foldl_absorb, Wgpeer.publicKey_relink, ← hrq, ← hr]
    intro h
    rw [← h] at hne
    simp at hne

/-- The merge leaves alone a chain it has nothing to do on. -/
theorem mergeRuns_of_chain (ps : List Wgpeer) (hlast : ∀ p ∈ ps, p.LastOK)
    (hne : ps.Chain' (fun p q => p.publicKey ≠ q.publicKey)) : mergeRuns ps = ps := by
  induction ps with
  | nil => simp [mergeRuns]
  | cons p ps ih =>
    have ih' := ih (fun q hq => hlast q (List.mem_cons_of_mem _ hq)) hne.tail
    cases ps with
    | nil => simp [mergeRuns_single, Wgpeer.relink_of_lastOK (hlast p (List.mem_singleton_self _))]
    | cons q ps =>
      rw [mergeRuns_cons_ne _ (List.chain'_cons.mp hne).1, ih',
        Wgpeer.relink_of_lastOK (hlast p (List.mem_cons_self _ _))]

/-- A second merge is the identity. -/
theorem mergeRuns_idem (ps : List Wgpeer) : mergeRuns (mergeRuns ps) = mergeRuns ps :=
  mergeRuns_of_chain _ (mergeRuns_lastOK ps) (mergeRuns_chain ps)

/-! ### The code computes the merge on split peers -/

/-- A run followed by a peer of another key merges on its own. -/
theorem mergeRuns_run_append {q : Wgpeer} {run rest : List Wgpeer}
    (hrun : ∀ r ∈ run, r.publicKey = q.publicKey) (hrest : ∀ r ∈ rest.head?, r.publicKey ≠ q.publicKey) :
    mergeRuns (q :: (run ++ rest)) = run.foldl Wgpeer.absorb q.relink :: mergeRuns rest := by
  have hpos : ∀ r ∈ run, (r.publicKey == q.publicKey) = true := fun r hr => by simpa using hrun r hr
  have hstop : rest.takeWhile (·.publicKey == q.publicKey) = [] ∧
      rest.dropWhile (·.publicKey == q.publicKey) = rest := by
    cases rest with
    | nil => simp
    | cons r rest => simp [hrest r rfl]
  rw [mergeRuns]
  simp only [List.takeWhile_append_of_pos hpos, List.dropWhile_append_of_pos hpos, hstop.1,
    hstop.2, List.append_nil]

/-- A peer that continues its predecessor's run brings at least one allowed-ip. -/
def ContinuesNonempty (p q : Wgpeer) : Prop := p.publicKey = q.publicKey → q.allowedips ≠ []

/-- On well-linked peers a merge step is the specification's append, unless it would
splice an empty chain onto a non-empty one. -/
theorem mergeAllowedips_eq_absorb {p q : Wgpeer} (hp : p.LastOK) (hq : q.LastOK)
    (hne : q.allowedips ≠ []) : mergeAllowedips p q = some (p.absorb q) := by
  unfold Wgpeer.LastOK at hp hq
  unfold mergeAllowedips Wgpeer.absorb
  rcases hpa : p.allowedips with _ | ⟨a, t⟩
  · simp [hq]
  · obtain ⟨b, u, hqa⟩ := List.exists_cons_of_ne_nil hne
    simp only [hpa, lastIndex_cons] at hp
    simp only [hp, hq, hqa, lastIndex_cons, Option.map_some', List.cons_append,
      List.length_append, List.length_cons]
    rw [List.take_of_length_le (by simp)]
    simp only [List.cons_append, Option.some.injEq]
    congr 2
    omega

theorem coalesceFrom_eq_mergeRuns : ∀ (rest : List Wgpeer) (p : Wgpeer), p.LastOK →
    (∀ q ∈ rest, q.LastOK) → (p :: rest).Chain' ContinuesNonempty →
    coalesceFrom p rest = some (mergeRuns (p :: rest))
  | [], p, hp, _, _ => by simp [coalesceFrom, mergeRuns_single, Wgpeer.relink_of_lastOK hp]
  | q :: rest, p, hp, hrest, hc => by
    have hq := hrest q (List.mem_cons_self _ _)
    have hrest' := fun r hr => hrest r (List.mem_cons_of_mem q hr)
    obtain ⟨hpq, hc'⟩ := List.chain'_cons.mp hc
    by_cases hk : p.publicKey = q.publicKey
    · rw [coalesceFrom, if_neg (not_not.mpr hk), mergeAllowedips_eq_absorb hp hq (hpq hk),
        Option.some_bind, mergeRuns_cons_eq rest hk]
      exact coalesceFrom_eq_mergeRuns rest _ (p.lastOK_absorb q) hrest'
        (hc'.imp_head fun h hk' => h (hk.symm.trans hk'))
    · rw [coalesceFrom, if_pos hk, coalesceFrom_eq_mergeRuns rest q hq hrest' hc',
        mergeRuns_cons_ne rest hk, Wgpeer.relink_of_lastOK hp]
      rfl

/-- **`coalesce_peers` is the specification's merge** on well-linked peers whose runs
continue with non-empty chains. -/
theorem coalescePeers_eq_mergeRuns (device : Wgdevice) (hlast : ∀ p ∈ device.peers, p.LastOK)
    (hcont : device.peers.Chain' ContinuesNonempty) :
    coalescePeers device = some { device with peers := mergeRuns device.peers } := by
  unfold coalescePeers
  rcases hd : device.peers with _ | ⟨p, rest⟩
  · cases device; simp_all [mergeRuns]
  · rw [hd] at hlast hcont
    dsimp only
    rw [coalesceFrom_eq_mergeRuns rest p (hlast p (List.mem_cons_self _ _))
      (fun q hq => hlast q (List.mem_cons_of_mem p hq)) hcont]
    rfl

/-- A second pass of `coalesce_peers` over its own result changes nothing. -/
theorem coalescePeers_twice (device : Wgdevice) (hlast : ∀ p ∈ device.peers, p.LastOK)
    (hcont : device.peers.Chain' ContinuesNonempty) :
    (coalescePeers device).bind coalescePeers = coalescePeers device := by
  rw [coalescePeers_eq_mergeRuns device hlast hcont, Option.some_bind,
    coalescePeers_eq_mergeRuns _ (mergeRuns_lastOK _)
      ((mergeRuns_chain _).imp fun _ _ hne heq => absurd heq hne), mergeRuns_idem]

/-! ### Where the splice goes wrong -/

/-- A peer with one allowed-ip, correctly linked. -/
def splitHead : Wgpeer := { Wgpeer.zero with allowedips := [Wgallowedip.zero], lastAllowedip := some 0 }

/-- **An empty continuation leaves `last_allowedip` `NULL` on a non-empty chain.**  The
peer `splitHead` is followed by a peer with the same key and no allowed-ips; the merge
keeps the one allowed-ip but copies the successor's `NULL`. -/
theorem coalescePeers_drops_last :
    (∀ p ∈ [splitHead, Wgpeer.zero], p.LastOK) ∧
    coalescePeers { Wgdevice.zero with peers := [splitHead, Wgpeer.zero] } =
      some { Wgdevice.zero with peers := [{ splitHead with lastAllowedip := none }] } ∧
    ¬ ({ splitHead with lastAllowedip := none } : Wgpeer).LastOK := by
  decide

/-- A third peer of the run then makes the loop write through that `NULL`. -/
theorem coalescePeers_null_deref :
    coalescePeers { Wgdevice.zero with peers := [splitHead, Wgpeer.zero, splitHead] } = none := by
  decide

end WireguardIpc
