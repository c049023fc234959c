/-
The netlink round trip: what `kernel_set_device` sends, read back as `kernel_get_device`
reads a dump.

The two halves meet at `ExactBlock`, the shape of the peer entries the encoder sends.

  * The decoder takes every entry of that shape, with valid allowed-ips, to one peer that
    holds the entry's key, its first-entry fields and its allowed-ips, correctly linked.
  * The entries of one block then share a key, and every entry after the first brings an
    allowed-ip, so `coalesce_peers` is the specification's merge
    (`coalescePeers_eq_mergeRuns`); when adjacent peers of the device have distinct keys
    its runs are exactly the blocks, and each block merges back into its peer.

The device-level attributes and the name are read back from the first message; the
later messages only set the name again.
-/
import WireguardIpc.Netlink.Set

namespace WireguardIpc

/-! ### Walks whose callbacks go on -/

theorem attrParse_append {σ : Type} (cb : Nlattr → σ → Option (Int × σ)) {as : List Nlattr}
    (bs : List Nlattr) {s s' : σ} (h : attrParse cb as s = some (MNL_CB_OK, s')) :
    attrParse cb (as ++ bs) s = attrParse cb bs s' := by
  induction as generalizing s with
  | nil => cases h; rfl
  | cons a as ih =>
    obtain ⟨r₁, s₁, h₁, ⟨hr, rfl, -⟩ | ⟨hr, h⟩⟩ := attrParse_cons_eq_some h
    · exact absurd hr (by decide)
    · rw [List.cons_append, attrParse_cons_of_ok _ h₁ hr, ih h]

/-- A walk whose callbacks all answer `MNL_CB_OK`, storing a field and leaving the rest of
the state alone, folds the stores. -/
theorem attrParse_eq_foldl {σ τ : Type} (cb : Nlattr → σ × τ → Option (Int × (σ × τ)))
    (f : Nlattr → σ → σ) {as : List Nlattr}
    (h : ∀ a ∈ as, ∀ x t, cb a (x, t) = some (MNL_CB_OK, f a x, t)) (x : σ) (t : τ) :
    attrParse cb as (x, t) = some (MNL_CB_OK, as.foldl (fun x a => f a x) x, t) := by
  induction as generalizing x with
  | nil => rfl
  | cons a as ih =>
    rw [attrParse_cons_of_ok _ (h a (List.mem_cons_self _ _) x t) (by decide),
      ih (fun b hb => h b (List.mem_cons_of_mem a hb))]
    rfl

/-! ### Allowed-ips -/

theorem attrParse_parseAllowedip {a : Wgallowedip} (hv : a.valid) (sys : Sys) :
    attrParse parseAllowedip (allowedipAttrs a) (Wgallowedip.zero, sys) =
      some (MNL_CB_OK, a.decoded, sys) := by
  obtain ⟨fam, ip, cidr⟩ := a
  have hfam : fam = 2 ∨ fam = 10 := by
    simp only [Wgallowedip.valid, Bool.or_eq_true, Bool.and_eq_true, beq_iff_eq] at hv
    rcases hv with ⟨h, -⟩ | ⟨h, -⟩
    exacts [.inl (UInt16.toNat.inj h), .inr (UInt16.toNat.inj h)]
  rcases hfam with rfl | rfl <;>
    simp only [allowedipAttrs, attrParse, parseAllowedip, MNL_CB_OK, WGALLOWEDIP_A_FAMILY,
      Nlattr.type_u16, ↓reduceIte, Nlattr.validate, Nlattr.payloadLen_u16, beq_self_eq_true,
      Nlattr.getNum_u16, UInt16.reduceToNat, UInt16.reduceOfNat, Wgallowedip.zero, MNL_CB_STOP,
      Int.reduceLE, WGALLOWEDIP_A_IPADDR, Nlattr.type_attr, Nat.succ_ne_self, Nlattr.payloadLen_attr,
      List.length_take, Bytes.length_data, Nat.reduceLeDiff, Nat.min_eq_left, Nat.reduceEqDiff,
      Nlattr.payload_attr, WGALLOWEDIP_A_CIDR_MASK, Nlattr.type_u8, Nlattr.payloadLen_u8,
      Nlattr.getNum_u8, UInt8.ofNat_toNat, Wgallowedip.decoded, Wgallowedip.addr, AF_INET,
      parseAllowedipValidate, Sys.validated_true]

/-- `p` with `l` appended to its allowed-ips and `last_allowedip` on the last of them. -/
def Wgpeer.appendAllowedips (p : Wgpeer) (l : List Wgallowedip) : Wgpeer :=
  { p with allowedips := p.allowedips ++ l, lastAllowedip := lastIndex (p.allowedips ++ l) }

theorem Wgpeer.appendAllowedips_nil {p : Wgpeer} (hp : p.LastOK) : p.appendAllowedips [] = p := by
  cases p; simp_all [appendAllowedips, LastOK]

theorem Wgpeer.appendAllowedips_append (p : Wgpeer) (l₁ l₂ : List Wgallowedip) :
    (p.appendAllowedips l₁).appendAllowedips l₂ = p.appendAllowedips (l₁ ++ l₂) := by
  simp [appendAllowedips]

theorem Wgpeer.lastOK_appendAllowedips (p : Wgpeer) (l : List Wgallowedip) :
    (p.appendAllowedips l).LastOK := rfl

theorem parseAllowedips_nest {a : Wgallowedip} (hv : a.valid) {p : Wgpeer} (hp : p.LastOK)
    (e : Nat) : parseAllowedips (allowedipAttr a) (p, ⟨[], e⟩) =
      some (MNL_CB_OK, p.appendAllowedips [a.decoded], ⟨[], e⟩) := by
  unfold Wgpeer.LastOK at hp
  simp [parseAllowedips, Sys.calloc, allowedipAttr, attrParse_parseAllowedip hv, hp,
    linkLast_lastIndex, Wgallowedip.valid_decoded, hv, Wgpeer.appendAllowedips, MNL_CB_OK]

/-- **`parse_allowedips` over the nests the encoder puts** appends each allowed-ip, as
decoded, to the peer's chain. -/
theorem attrParse_parseAllowedips (e : Nat) : ∀ (l : List Wgallowedip), (∀ a ∈ l, a.valid) →
    ∀ {p : Wgpeer}, p.LastOK → attrParse parseAllowedips (l.map allowedipAttr) (p, ⟨[], e⟩) =
      some (MNL_CB_OK, p.appendAllowedips (l.map Wgallowedip.decoded), ⟨[], e⟩)
  | [], _, p, hp => by simp [Wgpeer.appendAllowedips_nil hp]
  | a :: l, hv, p, hp => by
    rw [List.map_cons, attrParse_cons_of_ok _ (parseAllowedips_nest (hv a (List.mem_cons_self _ _))
      hp e) (by decide), attrParse_parseAllowedips e l (fun b hb => hv b (List.mem_cons_of_mem a hb))
      (Wgpeer.lastOK_appendAllowedips _ _), Wgpeer.appendAllowedips_append]
    rfl

/-! ### Peers -/

theorem foldl_ite {α β : Type} (c : Prop) [Decidable c] (l₁ l₂ : List α) (f : β → α → β) (b : β) :
    (if c then l₁ else l₂).foldl f b = if c then l₁.foldl f b else l₂.foldl f b := by
  split <;> rfl

/-- The endpoint the decoder stores is the one the encoder read. -/
theorem foldl_endpointAttr (p q : Wgpeer) :
    (endpointAttr p).foldl (fun q a => parsePeerField a q) q =
      { q with endpoint := (p.endpoint.addr.map q.endpoint.copyIn).getD q.endpoint } := by
  unfold endpointAttr Endpoint.addr
  split_ifs with h4 h6 <;> unfold Endpoint.family at *
  · simp [parsePeerField, Nlattr.getNum, List.take_take, h4, WGPEER_A_ENDPOINT, WGPEER_A_PUBLIC_KEY,
      WGPEER_A_PRESHARED_KEY, SOCKADDR_LEN, SOCKADDR_IN_LEN, SOCKADDR_IN6_LEN]
  · simp [parsePeerField, Nlattr.getNum, h4, h6, WGPEER_A_ENDPOINT, WGPEER_A_PUBLIC_KEY,
      WGPEER_A_PRESHARED_KEY, SOCKADDR_LEN, SOCKADDR_IN_LEN, SOCKADDR_IN6_LEN]
  · rfl


theorem parsePeerField_publicKey (k : Key) (q : Wgpeer) :
    parsePeerField (.attr WGPEER_A_PUBLIC_KEY k.data) q =
      { q with publicKey := k, flags := { q.flags with hasPublicKey := true } } := by
  simp [parsePeerField, WG_KEY_LEN]

theorem parsePeerField_presharedKey (k : Key) (q : Wgpeer) :
    parsePeerField (.attr WGPEER_A_PRESHARED_KEY k.data) q =
      { q with presharedKey := k,
               flags := if k.isZero then q.flags else { q.flags with hasPresharedKey := true } } := by
  simp [parsePeerField, WG_KEY_LEN, WGPEER_A_PUBLIC_KEY, WGPEER_A_PRESHARED_KEY]

theorem parsePeerField_keepalive (v : UInt16) (q : Wgpeer) :
    parsePeerField (.u16 WGPEER_A_PERSISTENT_KEEPALIVE_INTERVAL v) q =
      { q with persistentKeepaliveInterval := v } := by
  simp [parsePeerField, Nlattr.validate, UInt16.ofNat_toNat, WGPEER_A_PUBLIC_KEY,
    WGPEER_A_PRESHARED_KEY, WGPEER_A_ENDPOINT, WGPEER_A_PERSISTENT_KEEPALIVE_INTERVAL]

theorem parsePeerField_flags (v : UInt32) (q : Wgpeer) :
    parsePeerField (.u32 WGPEER_A_FLAGS v) q = q := by
  simp [parsePeerField, WGPEER_A_PUBLIC_KEY, WGPEER_A_PRESHARED_KEY, WGPEER_A_ENDPOINT,
    WGPEER_A_PERSISTENT_KEEPALIVE_INTERVAL, WGPEER_A_LAST_HANDSHAKE_TIME, WGPEER_A_RX_BYTES,
    WGPEER_A_TX_BYTES, WGPEER_A_FLAGS]

/-- What `parse_peer` stores from the attributes of an entry of `p`, before its allowed-ips. -/
def fieldsPeer (p : Wgpeer) (fresh : Bool) : Wgpeer :=
  (peerAttrs p fresh).foldl (fun q a => parsePeerField a q) Wgpeer.zero

theorem foldl_parsePeerField_allowedips (as : List Nlattr) (q : Wgpeer) :
    (as.foldl (fun q a => parsePeerField a q) q).allowedips = q.allowedips := by
  induction as generalizing q <;> simp [*]

theorem foldl_parsePeerField_lastAllowedip (as : List Nlattr) (q : Wgpeer) :
    (as.foldl (fun q a => parsePeerField a q) q).lastAllowedip = q.lastAllowedip := by
  induction as generalizing q <;> simp [*]

theorem fieldsPeer_publicKey (p : Wgpeer) (fresh : Bool) :
    (fieldsPeer p fresh).publicKey = p.publicKey ∧ (fieldsPeer p fresh).flags.hasPublicKey := by
  cases fresh <;>
    simp [fieldsPeer, peerAttrs, List.foldl_append, foldl_ite, parsePeerField_publicKey,
      parsePeerField_presharedKey, foldl_endpointAttr, parsePeerField_keepalive,
      parsePeerField_flags, apply_ite Wgpeer.publicKey, apply_ite Wgpeer.flags,
      apply_ite WgpeerFlags.hasPublicKey]

theorem fieldsPeer_presharedKey {p : Wgpeer} (hf : p.flags.hasPresharedKey)
    (hz : p.presharedKey.isZero = false) :
    (fieldsPeer p true).flags.hasPresharedKey ∧ (fieldsPeer p true).presharedKey = p.presharedKey := by
  simp [fieldsPeer, peerAttrs, List.foldl_append, foldl_ite, parsePeerField_publicKey,
    parsePeerField_presharedKey, foldl_endpointAttr, parsePeerField_keepalive,
    parsePeerField_flags, apply_ite Wgpeer.presharedKey, apply_ite Wgpeer.flags,
    apply_ite WgpeerFlags.hasPresharedKey, hf, hz]

theorem fieldsPeer_endpoint (p : Wgpeer) : (fieldsPeer p true).endpoint.addr = p.endpoint.addr := by
  simpa [fieldsPeer, peerAttrs, List.foldl_append, foldl_ite, parsePeerField_publicKey,
    parsePeerField_presharedKey, foldl_endpointAttr, parsePeerField_keepalive,
    parsePeerField_flags, apply_ite Wgpeer.endpoint] using Endpoint.addr_copyIn p.endpoint

theorem fieldsPeer_keepalive {p : Wgpeer} (h : p.flags.hasPersistentKeepaliveInterval) :
    (fieldsPeer p true).persistentKeepaliveInterval = p.persistentKeepaliveInterval := by
  simp [fieldsPeer, peerAttrs, List.foldl_append, foldl_ite, parsePeerField_publicKey,
    parsePeerField_presharedKey, foldl_endpointAttr, parsePeerField_keepalive,
    parsePeerField_flags, apply_ite Wgpeer.persistentKeepaliveInterval, h]

theorem fieldsPeer_lastOK (p : Wgpeer) (fresh : Bool) : (fieldsPeer p fresh).LastOK := by
  simp [Wgpeer.LastOK, fieldsPeer, foldl_parsePeerField_allowedips,
    foldl_parsePeerField_lastAllowedip, Wgpeer.zero]

theorem mem_endpointAttr {p : Wgpeer} {a : Nlattr} (h : a ∈ endpointAttr p) :
    ∃ data, a = .attr WGPEER_A_ENDPOINT data := by
  unfold endpointAttr at h; split_ifs at h <;> simp_all

/-- Every attribute of an entry before its allowed-ips is a field `parse_peer` stores,
of the length its validation asks. -/
theorem plain_of_mem_peerAttrs {p : Wgpeer} {fresh : Bool} :
    ∀ a ∈ peerAttrs p fresh, a.type ≠ WGPEER_A_ALLOWEDIPS ∧ parsePeerValidate a := by
  intro a ha
  simp only [peerAttrs, List.mem_append, List.mem_singleton, List.mem_ite_nil_right,
    List.mem_ite_nil_left] at ha
  rcases ha with (rfl | ⟨-, (⟨-, rfl⟩ | hx) | ⟨-, rfl⟩⟩) | ⟨-, rfl⟩
  on_goal 3 => obtain ⟨_, rfl⟩ := mem_endpointAttr hx
  all_goals simp [parsePeerValidate, Nlattr.validate, WGPEER_A_PUBLIC_KEY, WGPEER_A_PRESHARED_KEY,
    WGPEER_A_ENDPOINT, WGPEER_A_FLAGS, WGPEER_A_ALLOWEDIPS, WGPEER_A_PERSISTENT_KEEPALIVE_INTERVAL,
    WGPEER_A_RX_BYTES, WGPEER_A_TX_BYTES]

/-- The peer `parse_peers` builds from an entry of `p` carrying `aips`. -/
def entryPeer (p : Wgpeer) (fresh : Bool) (aips : List Wgallowedip) : Wgpeer :=
  (fieldsPeer p fresh).appendAllowedips (aips.map Wgallowedip.decoded)

/-- **`parse_peer` over an entry the encoder puts** stores the entry's fields, then its
allowed-ips. -/
theorem attrParse_parsePeer_entry (p : Wgpeer) (fresh : Bool) (ch : Option (List Wgallowedip))
    (hv : ∀ a ∈ ch.getD [], a.valid) (e : Nat) :
    attrParse parsePeer (peerEntry p fresh ch).nested (Wgpeer.zero, ⟨[], e⟩) =
      some (MNL_CB_OK, entryPeer p fresh (ch.getD []), ⟨[], e⟩) := by
  have hattrs : attrParse parsePeer (peerAttrs p fresh) (Wgpeer.zero, ⟨[], e⟩) =
      some (MNL_CB_OK, fieldsPeer p fresh, ⟨[], e⟩) :=
    attrParse_eq_foldl parsePeer parsePeerField
      (fun a ha q t => by simp [parsePeer, plain_of_mem_peerAttrs a ha]) _ _
  cases ch with
  | none =>
    simpa [peerEntry, entryPeer, Wgpeer.appendAllowedips_nil (fieldsPeer_lastOK p fresh)]
      using hattrs
  | some l =>
    have hnest : parsePeer (.nest WGPEER_A_ALLOWEDIPS (l.map allowedipAttr))
        (fieldsPeer p fresh, ⟨[], e⟩) = some (MNL_CB_OK, entryPeer p fresh l, ⟨[], e⟩) := by
      simp only [parsePeer, Nlattr.type_nest, if_true, Nlattr.nested_nest]
      exact attrParse_parseAllowedips e l hv (fieldsPeer_lastOK p fresh)
    rw [peerEntry, Nlattr.nested_nest, attrParse_append _ _ hattrs,
      attrParse_cons_of_ok _ hnest (by decide)]
    rfl

/-! ### Devices -/

/-- The state every walk of this decode runs in: every `calloc` succeeds, `errno` is `0`. -/
def sys₀ : Sys := ⟨[], 0⟩

/-- The peer `parse_peers` builds from an entry, starting from a zeroed peer. -/
def decodeEntry (e : Nlattr) : Wgpeer :=
  ((attrParse parsePeer e.nested (Wgpeer.zero, sys₀)).map (·.2.1)).getD Wgpeer.zero

/-- An entry as the encoder puts it, its allowed-ips valid. -/
def GoodEntry (e : Nlattr) : Prop :=
  ∃ p fresh ch, e = peerEntry p fresh ch ∧ ∀ a ∈ ch.getD [], a.valid

theorem decodeEntry_peerEntry {p : Wgpeer} {fresh : Bool} {ch : Option (List Wgallowedip)}
    (hv : ∀ a ∈ ch.getD [], a.valid) :
    decodeEntry (peerEntry p fresh ch) = entryPeer p fresh (ch.getD []) := by
  simp [decodeEntry, sys₀, attrParse_parsePeer_entry p fresh ch hv]

/-- `d` with `qs` linked after its peers and `last_peer` on the last of them. -/
def Wgdevice.appendPeers (d : Wgdevice) (qs : List Wgpeer) : Wgdevice :=
  { d with peers := d.peers ++ qs, lastPeer := lastIndex (d.peers ++ qs) }

theorem Wgdevice.appendPeers_append (d : Wgdevice) (qs₁ qs₂ : List Wgpeer) :
    (d.appendPeers qs₁).appendPeers qs₂ = d.appendPeers (qs₁ ++ qs₂) := by
  simp [appendPeers]

theorem parsePeers_entry {e : Nlattr} (he : GoodEntry e) {d : Wgdevice}
    (hd : d.lastPeer = lastIndex d.peers) :
    parsePeers e (d, sys₀) = some (MNL_CB_OK, d.appendPeers [decodeEntry e], sys₀) := by
  obtain ⟨p, fresh, ch, rfl, hv⟩ := he
  have hkey := (fieldsPeer_publicKey p fresh).2
  simp [parsePeers, Sys.calloc, sys₀, attrParse_parsePeer_entry p fresh ch hv,
    decodeEntry_peerEntry hv, hd, linkLast_lastIndex, Wgdevice.appendPeers, entryPeer,
    Wgpeer.appendAllowedips, hkey, MNL_CB_OK]

/-- **`parse_peers` over a peers nest of encoder entries** links one peer per entry. -/
theorem attrParse_parsePeers : ∀ (es : List Nlattr), (∀ e ∈ es, GoodEntry e) →
    ∀ {d : Wgdevice}, d.lastPeer = lastIndex d.peers →
    attrParse parsePeers es (d, sys₀) = some (MNL_CB_OK, d.appendPeers (es.map decodeEntry), sys₀)
  | [], _, d, hd => by cases d; simp_all [Wgdevice.appendPeers]
  | e :: es, he, d, hd => by
    rw [attrParse_cons_of_ok _ (parsePeers_entry (he e (List.mem_cons_self _ _)) hd) (by decide),
      attrParse_parsePeers es (fun x hx => he x (List.mem_cons_of_mem e hx)) rfl,
      Wgdevice.appendPeers_append]
    rfl


theorem Wgdevice.appendPeers_nil {d : Wgdevice} (hd : d.lastPeer = lastIndex d.peers) :
    d.appendPeers [] = d := by
  cases d; simp_all [appendPeers]

theorem foldl_parseDeviceField_links (as : List Nlattr) (d : Wgdevice) :
    (as.foldl (fun d a => parseDeviceField a d) d).peers = d.peers ∧
      (as.foldl (fun d a => parseDeviceField a d) d).lastPeer = d.lastPeer := by
  induction as generalizing d <;> simp [*, parseDeviceField_lastPeer]

theorem parseDeviceField_ifname (n : IfName) (d : Wgdevice) :
    parseDeviceField (.strz WGDEVICE_A_IFNAME n.chars) d = { d with name := n } := by
  simp [parseDeviceField, Nlattr.strz, Nlattr.validateString, IfName.ofCString_chars,
    WGDEVICE_A_IFINDEX, WGDEVICE_A_IFNAME]

/-- **One message as `read_device_cb` reads it**: the attributes before the peers nest are
stored, then a peer is linked for each entry of the nest. -/
theorem readDeviceCb_msg (as : List Nlattr) {es : List Nlattr}
    (has : ∀ a ∈ as, a.type ≠ WGDEVICE_A_PEERS ∧ parseDeviceValidate a)
    (none : Bool) (hes : ∀ e ∈ (if none then [] else es), GoodEntry e) {d : Wgdevice}
    (hd : d.lastPeer = lastIndex d.peers) :
    readDeviceCb (as ++ (if none then [] else [.nest WGDEVICE_A_PEERS es])) (d, sys₀) =
      some (MNL_CB_OK, (as.foldl (fun d a => parseDeviceField a d) d).appendPeers
        (if none then [] else es.map decodeEntry), sys₀) := by
  have hfields : attrParse parseDevice as (d, sys₀) =
      some (MNL_CB_OK, as.foldl (fun d a => parseDeviceField a d) d, sys₀) :=
    attrParse_eq_foldl parseDevice parseDeviceField
      (fun a ha d t => by simp [parseDevice, has a ha]) d sys₀
  obtain ⟨hpeers, hlast⟩ := foldl_parseDeviceField_links as d
  rw [readDeviceCb, attrParse_append _ _ hfields]
  cases none
  · rw [if_neg Bool.false_ne_true, if_neg Bool.false_ne_true, attrParse_cons_of_ok _
      (by simp only [parseDevice, Nlattr.type_nest, if_true, Nlattr.nested_nest]
          exact attrParse_parsePeers es (by simpa using hes)
            (hlast.trans (hd.trans (congrArg _ hpeers.symm))))
      (by decide)]
    rfl
  · simp [Wgdevice.appendPeers_nil (hlast.trans (hd.trans (congrArg _ hpeers.symm)))]


theorem parseDeviceField_privateKey (k : Key) (d : Wgdevice) :
    parseDeviceField (.attr WGDEVICE_A_PRIVATE_KEY k.data) d =
      { d with privateKey := k, flags := { d.flags with hasPrivateKey := true } } := by
  simp [parseDeviceField, WG_KEY_LEN, WGDEVICE_A_IFINDEX, WGDEVICE_A_IFNAME, WGDEVICE_A_PRIVATE_KEY]

theorem parseDeviceField_listenPort (v : UInt16) (d : Wgdevice) :
    parseDeviceField (.u16 WGDEVICE_A_LISTEN_PORT v) d = { d with listenPort := v } := by
  simp [parseDeviceField, Nlattr.validate, UInt16.ofNat_toNat, WGDEVICE_A_IFINDEX,
    WGDEVICE_A_IFNAME, WGDEVICE_A_PRIVATE_KEY, WGDEVICE_A_PUBLIC_KEY, WGDEVICE_A_LISTEN_PORT]

theorem parseDeviceField_fwmark (v : UInt32) (d : Wgdevice) :
    parseDeviceField (.u32 WGDEVICE_A_FWMARK v) d = { d with fwmark := v } := by
  simp [parseDeviceField, Nlattr.validate, UInt32.ofNat_toNat, WGDEVICE_A_IFINDEX,
    WGDEVICE_A_IFNAME, WGDEVICE_A_PRIVATE_KEY, WGDEVICE_A_PUBLIC_KEY, WGDEVICE_A_LISTEN_PORT,
    WGDEVICE_A_FWMARK]

theorem parseDeviceField_flags (v : UInt32) (d : Wgdevice) :
    parseDeviceField (.u32 WGDEVICE_A_FLAGS v) d = d := by
  simp [parseDeviceField, WGDEVICE_A_IFINDEX, WGDEVICE_A_IFNAME, WGDEVICE_A_PRIVATE_KEY,
    WGDEVICE_A_PUBLIC_KEY, WGDEVICE_A_LISTEN_PORT, WGDEVICE_A_FWMARK, WGDEVICE_A_FLAGS]

/-- What `parse_device` stores from the first message before its peers nest. -/
def fieldsDevice (dev : Wgdevice) : Wgdevice :=
  ([Nlattr.strz WGDEVICE_A_IFNAME dev.name.chars] ++ deviceAttrs dev).foldl
    (fun d a => parseDeviceField a d) Wgdevice.zero

theorem fieldsDevice_spec (dev : Wgdevice) :
    (fieldsDevice dev).name = dev.name ∧
    (dev.flags.hasPrivateKey → (fieldsDevice dev).privateKey = dev.privateKey) ∧
    (dev.flags.hasListenPort → (fieldsDevice dev).listenPort = dev.listenPort) ∧
    (dev.flags.hasFwmark → (fieldsDevice dev).fwmark = dev.fwmark) := by
  simp only [fieldsDevice, deviceAttrs, List.singleton_append, List.foldl_cons, List.foldl_append,
    foldl_ite, List.foldl_nil, parseDeviceField_ifname, parseDeviceField_privateKey,
    parseDeviceField_listenPort, parseDeviceField_fwmark, parseDeviceField_flags]
  refine ⟨by simp only [apply_ite Wgdevice.name, ite_self], fun h => ?_, fun h => ?_, fun h => ?_⟩ <;>
    simp only [h, if_true, apply_ite Wgdevice.privateKey, apply_ite Wgdevice.listenPort,
      apply_ite Wgdevice.fwmark, ite_self]

/-- Every attribute of the first message before its peers nest is a field `parse_device`
stores, of the length its validation asks. -/
theorem plain_of_mem_firstAttrs (dev : Wgdevice) :
    ∀ a ∈ [Nlattr.strz WGDEVICE_A_IFNAME dev.name.chars] ++ deviceAttrs dev,
      a.type ≠ WGDEVICE_A_PEERS ∧ parseDeviceValidate a := by
  intro a ha
  simp only [deviceAttrs, List.mem_append, List.mem_singleton, List.mem_ite_nil_right] at ha
  rcases ha with rfl | ((⟨-, rfl⟩ | ⟨-, rfl⟩) | ⟨-, rfl⟩) | ⟨-, rfl⟩
  all_goals simp [parseDeviceValidate, Nlattr.validate, Nlattr.validateString, Nlattr.strz,
    WGDEVICE_A_IFINDEX, WGDEVICE_A_IFNAME, WGDEVICE_A_PRIVATE_KEY, WGDEVICE_A_LISTEN_PORT,
    WGDEVICE_A_FWMARK, WGDEVICE_A_FLAGS, WGDEVICE_A_PEERS]

/-- The later messages, read one after the other, each add their peers. -/
theorem recvRun_rest (dev : Wgdevice) : ∀ (rest : List (List Nlattr)),
    (∀ m ∈ rest, ∃ es, m = [.strz WGDEVICE_A_IFNAME dev.name.chars, .nest WGDEVICE_A_PEERS es]) →
    (∀ e ∈ rest.flatMap msgPeers, GoodEntry e) →
    ∀ {d : Wgdevice}, d.name = dev.name → d.lastPeer = lastIndex d.peers →
    recvRun (rest.map NlMsg.data ++ [NlMsg.done]) (d, sys₀) =
      some (MNL_CB_STOP, d.appendPeers ((rest.flatMap msgPeers).map decodeEntry), sys₀)
  | [], _, _, d, _, hd => by simp [recvRun, Wgdevice.appendPeers_nil hd]
  | m :: rest, hshape, hgood, d, hn, hd => by
    obtain ⟨es, rfl⟩ := hshape m (List.mem_cons_self _ _)
    have hpeers : msgPeers [.strz WGDEVICE_A_IFNAME dev.name.chars, .nest WGDEVICE_A_PEERS es] = es := by
      simpa using msgPeers_eq dev false false es
    have hes : ∀ e ∈ es, GoodEntry e := fun e he => hgood e (by simp [hpeers, he])
    have hm := readDeviceCb_msg [.strz WGDEVICE_A_IFNAME dev.name.chars]
      (fun a ha => plain_of_mem_firstAttrs dev a (List.mem_append_left _ ha)) false hes hd
    simp only [Bool.false_eq_true, if_false, List.singleton_append, List.foldl_cons,
      List.foldl_nil, parseDeviceField_ifname] at hm
    rw [show ({ d with name := dev.name } : Wgdevice) = d by rw [← hn]] at hm
    rw [List.map_cons, List.cons_append, recvRun, hm]
    simp only [show ¬ MNL_CB_OK ≤ MNL_CB_STOP by decide, if_false]
    rw [recvRun_rest dev rest (fun m hm => hshape m (List.mem_cons_of_mem _ hm))
      (fun e he => hgood e (by simp only [List.flatMap_cons, List.mem_append]; exact .inr he))
      (by simp [Wgdevice.appendPeers, hn]) rfl]
    simp [Wgdevice.appendPeers_append, hpeers]


/-- **The whole dump as `mnlg_socket_recv_run` reads it**: the first message stores the
device's fields and every message links its peers. -/
theorem recvRun_sent {dev : Wgdevice} {m₁ : List Nlattr} {rest : List (List Nlattr)}
    (h₁ : ∃ es, m₁ = [.strz WGDEVICE_A_IFNAME dev.name.chars] ++ deviceAttrs dev ++
      (if dev.peers.isEmpty then [] else [.nest WGDEVICE_A_PEERS es]))
    (hrest : ∀ m ∈ rest, ∃ es, m = [.strz WGDEVICE_A_IFNAME dev.name.chars, .nest WGDEVICE_A_PEERS es])
    (hgood : ∀ e ∈ (m₁ :: rest).flatMap msgPeers, GoodEntry e) :
    recvRun ((m₁ :: rest).map NlMsg.data ++ [NlMsg.done]) (Wgdevice.zero, sys₀) =
      some (MNL_CB_STOP,
        (fieldsDevice dev).appendPeers (((m₁ :: rest).flatMap msgPeers).map decodeEntry), sys₀) := by
  obtain ⟨es, rfl⟩ := h₁
  have hpeers := msgPeers_eq dev true dev.peers.isEmpty es
  rw [if_pos rfl] at hpeers
  have hes : ∀ e ∈ (if dev.peers.isEmpty then [] else es), GoodEntry e := fun e he =>
    hgood e (by rw [List.flatMap_cons, List.mem_append, hpeers]; exact .inl he)
  have hm := readDeviceCb_msg _ (plain_of_mem_firstAttrs dev) dev.peers.isEmpty hes
    (show Wgdevice.zero.lastPeer = lastIndex Wgdevice.zero.peers from rfl)
  rw [List.map_cons, List.cons_append, recvRun, hm]
  simp only [show ¬ MNL_CB_OK ≤ MNL_CB_STOP by decide, if_false]
  rw [recvRun_rest dev rest hrest
    (fun e he => hgood e (by simp only [List.flatMap_cons, List.mem_append]; exact .inr he))
    (by simpa [Wgdevice.appendPeers] using (fieldsDevice_spec dev).1) rfl]
  rw [Wgdevice.appendPeers_append, List.flatMap_cons, List.map_append, hpeers,
    apply_ite (List.map decodeEntry), List.map_nil]
  rfl

/-! ### Coalescing the blocks back -/

theorem entryPeer_allowedips (p : Wgpeer) (fresh : Bool) (aips : List Wgallowedip) :
    (entryPeer p fresh aips).allowedips = aips.map Wgallowedip.decoded := by
  simp [entryPeer, Wgpeer.appendAllowedips, fieldsPeer, foldl_parsePeerField_allowedips,
    Wgpeer.zero]

/-- A block merged by `coalesce_peers` is the peer it was sent for. -/
theorem samePeer_merge {p : Wgpeer} {c₀ : List Wgallowedip} {chunks : List (List Wgallowedip)}
    (hsplit : p.allowedips = c₀ ++ chunks.flatten) :
    SamePeer p ((chunks.map (entryPeer p false)).foldl Wgpeer.absorb (entryPeer p true c₀).relink) := by
  obtain ⟨last, h⟩ := Wgpeer.foldl_absorb (chunks.map (entryPeer p false)) (entryPeer p true c₀).relink
  rw [h]
  constructor
  case allowedips =>
    have hall : (chunks.map (entryPeer p false)).flatMap (·.allowedips) =
        (chunks.map (List.map Wgallowedip.decoded)).flatten := by
      simp [List.flatMap, entryPeer_allowedips, Function.comp_def]
    have hmap : List.Forall₂ Wgallowedip.same p.allowedips (p.allowedips.map Wgallowedip.decoded) :=
      List.forall₂_map_right_iff.2 (List.forall₂_same.2 fun a _ => Wgallowedip.same_decoded a)
    simpa [Wgpeer.relink, entryPeer_allowedips, hall, hsplit, List.map_flatten] using hmap
  -- the other fields are those of the first entry; reduce them to its parsed fields
  all_goals dsimp only [Wgpeer.relink, entryPeer, Wgpeer.appendAllowedips]
  exacts [(fieldsPeer_publicKey p true).1, fieldsPeer_presharedKey, fieldsPeer_endpoint p,
    fieldsPeer_keepalive]

theorem publicKey_entryPeer (p : Wgpeer) (fresh : Bool) (aips : List Wgallowedip) :
    (entryPeer p fresh aips).publicKey = p.publicKey := (fieldsPeer_publicKey p fresh).1

/-- The entries of a block are entries the decoder accepts, and decode to the peer's first
entry followed by one peer per chunk. -/
theorem exactBlock_decode {p : Wgpeer} {b : List Nlattr} (hb : ExactBlock p b)
    (hv : ∀ a ∈ p.allowedips, a.valid) :
    (∀ e ∈ b, GoodEntry e) ∧ ∃ (c₀ : List Wgallowedip) (chunks : List (List Wgallowedip)), p.allowedips = c₀ ++ chunks.flatten ∧
      (∀ l ∈ chunks, l ≠ []) ∧ b.map decodeEntry = entryPeer p true c₀ :: chunks.map (entryPeer p false) := by
  obtain ⟨ch, chunks, rfl, hsplit, hne⟩ := hb
  have hv₀ : ∀ a ∈ ch.getD [], a.valid := fun a ha => hv a (hsplit ▸ List.mem_append_left _ ha)
  have hvl : ∀ l ∈ chunks, ∀ a ∈ (some l).getD [], a.valid := fun l hl a ha =>
    hv a (hsplit ▸ List.mem_append_right _ (List.mem_flatten.2 ⟨l, hl, ha⟩))
  refine ⟨?_, ch.getD [], chunks, hsplit, hne, ?_⟩
  · simp only [List.mem_cons, List.mem_map]
    rintro e (rfl | ⟨l, hl, rfl⟩)
    · exact ⟨p, true, ch, rfl, hv₀⟩
    · exact ⟨p, false, some l, rfl, hvl l hl⟩
  · rw [List.map_cons, List.map_map, decodeEntry_peerEntry hv₀]
    exact congrArg _ (List.map_congr_left fun l hl => decodeEntry_peerEntry (hvl l hl))

/-- Within a block, every peer after the first brings allowed-ips. -/
theorem chain_entryPeers (p q : Wgpeer) : ∀ (chunks : List (List Wgallowedip)), (∀ l ∈ chunks, l ≠ []) →
    (q :: chunks.map (entryPeer p false)).Chain' ContinuesNonempty
  | [], _ => List.chain'_singleton q
  | l :: ls, hne => List.chain'_cons.2 ⟨fun _ => by
      simpa [entryPeer_allowedips] using hne l (List.mem_cons_self l ls),
    chain_entryPeers p _ ls fun l' hl' => hne l' (List.mem_cons_of_mem l hl')⟩

/-- **The blocks, decoded and merged**: the decoder accepts every entry, the decoded peers
are well linked and continue their runs with allowed-ips, and `mergeRuns` gives back one
peer per block, the same as the peer it was sent for. -/
theorem decode_blocks : ∀ {peers : List Wgpeer} {blocks : List (List Nlattr)},
    List.Forall₂ ExactBlock peers blocks → peers.Chain' (fun p q => p.publicKey ≠ q.publicKey) →
    (∀ p ∈ peers, ∀ a ∈ p.allowedips, a.valid) →
    (∀ e ∈ blocks.flatten, GoodEntry e) ∧ (∀ q ∈ blocks.flatten.map decodeEntry, q.LastOK) ∧
      (blocks.flatten.map decodeEntry).Chain' ContinuesNonempty ∧
      (blocks.flatten.map decodeEntry).head?.map (·.publicKey) = peers.head?.map (·.publicKey) ∧
      List.Forall₂ SamePeer peers (mergeRuns (blocks.flatten.map decodeEntry))
  | [], [], .nil, _, _ => by simp [mergeRuns]
  | p :: ps, b :: bs, .cons hb hbs, hk, hv => by
    obtain ⟨hgood, c₀, chunks, hsplit, hne, hdec⟩ := exactBlock_decode hb (hv p (List.mem_cons_self _ _))
    obtain ⟨hgood', hlast', hchain', hhead', hsame'⟩ :=
      decode_blocks hbs hk.tail fun q hq => hv q (List.mem_cons_of_mem p hq)
    have hkey : ∀ r ∈ entryPeer p true c₀ :: chunks.map (entryPeer p false), r.publicKey = p.publicKey := by
      simp [publicKey_entryPeer]
    -- the next block starts with the next peer, whose key differs
    have hnext : ∀ r ∈ (bs.flatten.map decodeEntry).head?, r.publicKey ≠ p.publicKey := by
      intro r hr
      rw [Option.mem_def.1 hr] at hhead'
      cases ps with
      | nil => simp at hhead'
      | cons p' ps =>
        simp only [Option.map_some', List.head?_cons, Option.some.injEq] at hhead'
        exact hhead' ▸ (List.chain'_cons.1 hk).1.symm
    rw [List.flatten_cons, List.map_append, hdec, List.cons_append]
    refine ⟨fun e he => (List.mem_append.1 he).elim (hgood e) (hgood' e), ?_, ?_, ?_, ?_⟩
    · simp only [List.mem_cons, List.mem_append]
      rintro q (rfl | hq | hq)
      · exact Wgpeer.lastOK_appendAllowedips _ _
      · obtain ⟨l, -, rfl⟩ := List.mem_map.1 hq
        exact Wgpeer.lastOK_appendAllowedips _ _
      · exact hlast' q hq
    · rw [← List.cons_append]
      exact List.chain'_append.2 ⟨chain_entryPeers p _ chunks hne, hchain', fun x hx y hy hxy =>
        (hnext y hy (hxy.symm.trans (hkey x (List.mem_of_mem_getLast? hx)))).elim⟩
    · simp [publicKey_entryPeer]
    · rw [mergeRuns_run_append (fun r hr => (hkey r (List.mem_cons_of_mem _ hr)).trans
        (publicKey_entryPeer p true c₀).symm) (fun r hr => publicKey_entryPeer p true c₀ ▸ hnext r hr)]
      exact .cons (samePeer_merge hsplit) hsame'

/-! ### The round trip -/

/-- The device fields decoded from the first message, with the peers put back. -/
theorem sameDevice_fieldsDevice {dev : Wgdevice} {qs ps : List Wgpeer}
    (h : List.Forall₂ SamePeer dev.peers ps) :
    SameDevice dev { (fieldsDevice dev).appendPeers qs with peers := ps } := by
  obtain ⟨hn, hk, hp, hf⟩ := fieldsDevice_spec dev
  dsimp only [Wgdevice.appendPeers]
  exact ⟨hn, hk, hp, hf, h⟩

/-- **A device set through the kernel reads back the same.**  The messages
`kernel_set_device` sends, read as one dump by `read_device_cb` into a fresh device and
merged by `coalesce_peers`, give back the interface name, the flagged device fields, and
the peers in order with their keys, endpoints, flagged keepalive and allowed-ips. -/
theorem kernelSetDevice_roundTrip (dev : Wgdevice) (cap : Nat) (hcap : capacityBound dev.name ≤ cap)
    (hkeys : dev.peers.Chain' fun p q => p.publicKey ≠ q.publicKey)
    (hvalid : ∀ p ∈ dev.peers, ∀ a ∈ p.allowedips, a.valid) :
    ∃ msgs d, (∀ fuel, pendingAll dev.peers < fuel → kernelSetDevice cap none [] dev fuel = some (msgs, 0)) ∧
      getOut ⟨none, none, msgs.map NlMsg.data ++ [NlMsg.done]⟩ sys₀ = some (0, some d, sys₀) ∧
      SameDevice dev d := by
  obtain ⟨m₁, rest, hrun, h₁, -, hrest, hemits⟩ := kernelSetDevice_spec hcap
  obtain ⟨blocks, hE, hblocks⟩ := emits_exactBlocks _ _ hemits
  obtain ⟨hgood, hlast, hchain, -, hsame⟩ := decode_blocks hblocks hkeys hvalid
  rw [← hE] at hgood hlast hchain hsame
  set ds := ((m₁ :: rest).flatMap msgPeers).map decodeEntry with hds
  have hdev : ((fieldsDevice dev).appendPeers ds).peers = ds := by
    simp [Wgdevice.appendPeers, (foldl_parseDeviceField_links _ _).1, fieldsDevice, Wgdevice.zero]
  have hco := coalescePeers_eq_mergeRuns ((fieldsDevice dev).appendPeers ds)
    (by rw [hdev]; exact hlast) (by rw [hdev]; exact hchain)
  refine ⟨m₁ :: rest, { (fieldsDevice dev).appendPeers ds with peers := mergeRuns ds }, hrun, ?_,
    sameDevice_fieldsDevice hsame⟩
  simp only [getOut]
  rw [show ({ sys₀ with errno := 0 } : Sys) = sys₀ from rfl,
    recvRun_sent h₁ (fun m hm => (hrest m hm).2) hgood, ← hds]
  simp only [show ¬ MNL_CB_STOP < 0 by decide, if_false, hco, hdev, Option.map_some']

/-- `twoPeerDevice`, its two peers split over two messages at `SOCKET_BUFFER_SIZE = 260`,
read back. -/
theorem kernelSetDevice_roundTrip_twoPeers : capacityBound twoPeerDevice.name ≤ 260 ∧
    twoPeerDevice.peers.Chain' (fun p q => p.publicKey ≠ q.publicKey) ∧
    (∀ p ∈ twoPeerDevice.peers, ∀ a ∈ p.allowedips, a.valid) ∧
    (∃ msgs d, (∀ fuel, pendingAll twoPeerDevice.peers < fuel →
        kernelSetDevice 260 none [] twoPeerDevice fuel = some (msgs, 0)) ∧
      getOut ⟨none, none, msgs.map NlMsg.data ++ [NlMsg.done]⟩ sys₀ = some (0, some d, sys₀) ∧
      SameDevice twoPeerDevice d) ∧
    (kernelSetDevice 260 none [] twoPeerDevice 8).map (·.1.length) = some 2 :=
  have hcap : capacityBound twoPeerDevice.name ≤ 260 := by decide
  have hkeys : twoPeerDevice.peers.Chain' (fun p q => p.publicKey ≠ q.publicKey) :=
    List.chain'_pair.2 (by decide)
  have hvalid : ∀ p ∈ twoPeerDevice.peers, ∀ a ∈ p.allowedips, a.valid := by decide
  ⟨hcap, hkeys, hvalid, kernelSetDevice_roundTrip _ _ hcap hkeys hvalid, by decide⟩

end WireguardIpc
