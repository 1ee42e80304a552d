import MeerkatNet.V2.Types

/-!
# Address translation

`translateAddress` decides by raw text tests and builds its answer by string
formatting. The results here compare it with the protocols of the addresses: what
it returns always splits into the expected pieces, but the answer of the rewriting
branch never parses, since it has a doubled slash.
-/

namespace MeerkatNet.V2

open Libp2p SlashText

variable {PeerId : Type}

/-- The last peer id of an address: for a circuit address, its destination. -/
def extractPeerId (addr : Multiaddr PeerId) : Option PeerId :=
  (addr.filterMap fun
    | .p2p peer => some peer
    | _ => none).getLast?

/-- `NetworkActor::translate_address`; the error type is the one of the source, which
no branch uses. -/
def translateAddress (nodeType : NodeType) (canonical : Address) : Except String Address :=
  match nodeType with
  | .server => .ok canonical
  | .browserClient relayServer =>
    -- already through our relay
    if startsWith canonical.text relayServer.text && contains canonical.text "/p2p-circuit" then
      .ok canonical
    -- an IP address or a circuit through another relay: add our relay hop
    else if startsWith canonical.text "/ip4/" || startsWith canonical.text "/ip6/" then
      .ok ⟨relayServer.text ++ "/p2p-circuit/" ++ canonical.text⟩
    else .ok canonical

theorem translateAddress_ok (nodeType : NodeType) (canonical : Address) :
    ∃ address, translateAddress nodeType canonical = .ok address := by
  unfold translateAddress
  split
  · exact ⟨_, rfl⟩
  · split_ifs <;> exact ⟨_, rfl⟩

/-- The head test of the rewriting branch. -/
def DirectIp (canonical : Address) : Prop :=
  startsWith canonical.text "/ip4/" = true ∨ startsWith canonical.text "/ip6/" = true

/-- The text test of the first branch. -/
def SharesRelayText (relay canonical : Address) : Prop :=
  startsWith canonical.text relay.text = true ∧ contains canonical.text "/p2p-circuit" = true

/-- The pieces of an address begin with those of the relay and a circuit hop. -/
def RoutesThrough (relay address : Address) : Prop :=
  components relay.text ++ ["p2p-circuit"] <+: components address.text

instance (canonical : Address) : Decidable (DirectIp canonical) :=
  inferInstanceAs (Decidable (_ ∨ _))

instance (relay canonical : Address) : Decidable (SharesRelayText relay canonical) :=
  inferInstanceAs (Decidable (_ ∧ _))

instance (relay address : Address) : Decidable (RoutesThrough relay address) :=
  inferInstanceAs (Decidable (_ <+: _))

/-- The address of the rewriting branch. -/
def prepended (relay canonical : Address) : Address :=
  ⟨relay.text ++ "/p2p-circuit/" ++ canonical.text⟩

theorem translateAddress_browserClient (relay canonical : Address) :
    translateAddress (.browserClient relay) canonical =
      .ok (if ¬ SharesRelayText relay canonical ∧ DirectIp canonical then prepended relay canonical
        else canonical) := by
  by_cases hshares : SharesRelayText relay canonical <;> by_cases hdirect : DirectIp canonical <;>
    simp_all [translateAddress, SharesRelayText, DirectIp, prepended]

theorem prepended_text (relay canonical : Address) :
    (prepended relay canonical).text =
      relay.text ++ "/" ++ ("p2p-circuit" ++ "/" ++ canonical.text) := by
  simp [prepended, ← String.toList_inj]

theorem components_prepended (relay canonical : Address) :
    components (prepended relay canonical).text =
      components relay.text ++ ["p2p-circuit"] ++ components canonical.text := by
  have hcircuit : components "p2p-circuit" = ["p2p-circuit"] := by decide
  rw [prepended_text, components_slash, components_slash, hcircuit, List.append_assoc]

/-- The rewriting branch always routes through the relay, read piece by piece. -/
theorem prepended_routesThrough (relay canonical : Address) :
    RoutesThrough relay (prepended relay canonical) := by
  rw [RoutesThrough, components_prepended]
  exact List.prefix_append _ _

/-- An address through the relay passes the text test of the first branch. -/
theorem RoutesThrough.sharesRelayText {relay address : Address} (h : RoutesThrough relay address) :
    SharesRelayText relay address := by
  obtain ⟨rest, hrest⟩ := h
  rw [List.append_assoc, List.singleton_append] at hrest
  have htext : address.text = relay.text ++ ("/p2p-circuit" ++ SlashText.slashed rest) :=
    eq_append_slashed_of_append hrest.symm
  refine ⟨startsWith_iff_append.mpr ⟨_, htext⟩, ?_⟩
  rw [contains, decide_eq_true_eq, htext, String.toList_append, String.toList_append]
  exact ⟨_, _, List.append_assoc _ _ _⟩

theorem translateAddress_routed {relay address : Address} (h : RoutesThrough relay address) :
    translateAddress (.browserClient relay) address = .ok address := by
  rw [translateAddress_browserClient, if_neg fun hrewritten => hrewritten.1 h.sharesRelayText]

/-- Translation leaves its own results alone. On an address that goes through the relay already,
translated or not, it gives that address. -/
theorem translateAddress_idempotent (nodeType : NodeType) (canonical : Address) :
    ∃ address, translateAddress nodeType canonical = .ok address ∧
      translateAddress nodeType address = .ok address ∧
      ∀ relay, nodeType = .browserClient relay → RoutesThrough relay canonical →
        address = canonical := by
  cases nodeType with
  | server => exact ⟨canonical, rfl, rfl, fun _ _ _ => rfl⟩
  | browserClient relay =>
    by_cases hrewritten : ¬ SharesRelayText relay canonical ∧ DirectIp canonical
    · have htranslate : translateAddress (.browserClient relay) canonical =
          .ok (prepended relay canonical) := by
        rw [translateAddress_browserClient, if_pos hrewritten]
      refine ⟨_, htranslate, translateAddress_routed (prepended_routesThrough relay canonical), ?_⟩
      rintro relay' hrelay hroutes
      cases hrelay
      exact absurd hroutes.sharesRelayText hrewritten.1
    · have htranslate : translateAddress (.browserClient relay) canonical = .ok canonical := by
        rw [translateAddress_browserClient, if_neg hrewritten]
      exact ⟨canonical, htranslate, htranslate, fun _ _ _ => rfl⟩

theorem components_of_directIp {canonical : Address} (h : DirectIp canonical) :
    ∃ rest, components canonical.text = "" :: rest := by
  have hslash : ∃ tail, canonical.text = "/" ++ tail := by
    rcases h with h | h <;> obtain ⟨u, hu⟩ := startsWith_iff_append.mp h
    · exact ⟨"ip4/" ++ u, by simp [hu, ← String.toList_inj]⟩
    · exact ⟨"ip6/" ++ u, by simp [hu, ← String.toList_inj]⟩
  obtain ⟨tail, htail⟩ := hslash
  exact ⟨components tail, by rw [htail, components_slash_left]⟩

/-- The doubled slash after the circuit hop is read as a protocol without a name. -/
theorem parse_prepended (F : Formats PeerId) {relay canonical : Address} {mr : Multiaddr PeerId}
    (hrelay : F.parse relay.text = .ok mr) (hdirect : DirectIp canonical) :
    F.parse (prepended relay canonical).text = .error (.unknownProtocolString "") := by
  obtain ⟨rest, hrest⟩ := components_of_directIp hdirect
  have hcircuit : components "p2p-circuit" = ["p2p-circuit"] := by decide
  rw [prepended_text, F.parse_slash hrelay, components_slash, hcircuit, hrest]
  simp [Formats.fromStrParts, Except.map]

/-- On no relay and no canonical IP address does the translated address parse to the
protocols of the relay, a circuit hop and the protocols of the canonical address. -/
theorem translateAddress_never_relays (F : Formats PeerId) {relay canonical : Address}
    {mr mc : Multiaddr PeerId} (hrelay : F.parse relay.text = .ok mr)
    (hcanonical : F.parse canonical.text = .ok mc) (hdirect : DirectIp canonical) :
    ¬ ∃ address, translateAddress (.browserClient relay) canonical = .ok address ∧
      F.parse address.text = .ok (mr ++ [.p2pCircuit] ++ mc) := by
  rintro ⟨address, htranslate, hparse⟩
  rw [translateAddress_browserClient, Except.ok.injEq] at htranslate
  subst address
  split_ifs at hparse
  · rw [parse_prepended F hrelay hdirect] at hparse
    cases hparse
  · rw [hcanonical, Except.ok.injEq] at hparse
    have hlen := congrArg List.length hparse
    simp only [List.length_append, List.length_cons, List.length_nil] at hlen
    omega

/-- A relay and a server, with identity multihashes of one byte as their peer ids. -/
def sampleRelay : Address := ⟨"/ip4/10.0.0.1/tcp/9001/ws/p2p/176"⟩

def sampleServer : Address := ⟨"/ip4/10.0.0.2/tcp/9000/p2p/177"⟩

theorem translateAddress_never_relays_ipv6 :
    ¬ ∃ address, translateAddress (.browserClient sampleRelay) ⟨"/ip6/::1/tcp/9000/p2p/177"⟩ =
        .ok address ∧
      Formats.plain.parse address.text =
        .ok ([.other "ip4" (some "10.0.0.1"), .other "tcp" (some "9001"), .other "ws" none,
          .p2p "176"] ++ [.p2pCircuit] ++
          [.other "ip6" (some "::1"), .other "tcp" (some "9000"), .p2p "177"]) :=
  translateAddress_never_relays Formats.plain rfl rfl (by decide)

/-- The translated address of a server is refused by the parser. -/
theorem translateAddress_sampleServer_unparsable :
    Formats.plain.parse sampleRelay.text = .ok [.other "ip4" (some "10.0.0.1"),
      .other "tcp" (some "9001"), .other "ws" none, .p2p "176"] ∧
    Formats.plain.parse sampleServer.text = .ok [.other "ip4" (some "10.0.0.2"),
      .other "tcp" (some "9000"), .p2p "177"] ∧
    DirectIp sampleServer ∧ ¬ RoutesThrough sampleRelay sampleServer ∧
    translateAddress (.browserClient sampleRelay) sampleServer =
      .ok ⟨"/ip4/10.0.0.1/tcp/9001/ws/p2p/176/p2p-circuit//ip4/10.0.0.2/tcp/9000/p2p/177"⟩ ∧
    Formats.plain.parse
      "/ip4/10.0.0.1/tcp/9001/ws/p2p/176/p2p-circuit//ip4/10.0.0.2/tcp/9000/p2p/177" =
      .error (.unknownProtocolString "") :=
  ⟨rfl, rfl, by decide, by decide, rfl, rfl⟩

/-- On direct IP addresses and on circuits through another relay, the translated address
routes through the node's relay exactly for an IP address that the raw text test does not
mistake for one of the relay's own circuits. -/
theorem translateAddress_routesThrough_iff (relay canonical : Address)
    (hdomain : DirectIp canonical ∨ ("p2p-circuit" ∈ components canonical.text ∧
      ¬ RoutesThrough relay canonical)) :
    (∃ address, translateAddress (.browserClient relay) canonical = .ok address ∧
      RoutesThrough relay address) ↔
    DirectIp canonical ∧ (SharesRelayText relay canonical → RoutesThrough relay canonical) := by
  simp only [translateAddress_browserClient, Except.ok.injEq, exists_eq_left']
  by_cases hshares : SharesRelayText relay canonical
  · simp only [hshares, not_true_eq_false, false_and, if_false, forall_const]
    constructor
    · intro hroutes
      rcases hdomain with hdirect | ⟨-, hother⟩
      · exact ⟨hdirect, hroutes⟩
      · exact absurd hroutes hother
    · exact fun h => h.2
  · by_cases hdirect : DirectIp canonical
    · simpa [hshares, hdirect] using prepended_routesThrough relay canonical
    · rcases hdomain with h | ⟨-, hother⟩
      · exact absurd h hdirect
      · simpa [hdirect] using hother

theorem translateAddress_routesThrough_sampleServer :
    (∃ address, translateAddress (.browserClient sampleRelay) sampleServer = .ok address ∧
      RoutesThrough sampleRelay address) ↔
    DirectIp sampleServer ∧
      (SharesRelayText sampleRelay sampleServer → RoutesThrough sampleRelay sampleServer) :=
  translateAddress_routesThrough_iff sampleRelay sampleServer (.inl (by decide))

/-- A circuit through another relay that is named by DNS keeps its own route, and so does one
whose text merely begins like the relay's. -/
theorem translateAddress_keeps_foreign_circuits :
    (∃ m, Formats.plain.parse sampleRelay.text = .ok m) ∧
    "p2p-circuit" ∈ components "/dns4/relay.example/tcp/9001/p2p/178/p2p-circuit/p2p/177" ∧
    translateAddress (.browserClient sampleRelay)
        ⟨"/dns4/relay.example/tcp/9001/p2p/178/p2p-circuit/p2p/177"⟩ =
      .ok ⟨"/dns4/relay.example/tcp/9001/p2p/178/p2p-circuit/p2p/177"⟩ ∧
    ¬ RoutesThrough sampleRelay ⟨"/dns4/relay.example/tcp/9001/p2p/178/p2p-circuit/p2p/177"⟩ ∧
    (∃ m, Formats.plain.parse "/ip4/10.0.0.1/tcp/90" = .ok m) ∧
    DirectIp ⟨"/ip4/10.0.0.1/tcp/9001/p2p/178/p2p-circuit/p2p/177"⟩ ∧
    translateAddress (.browserClient ⟨"/ip4/10.0.0.1/tcp/90"⟩)
        ⟨"/ip4/10.0.0.1/tcp/9001/p2p/178/p2p-circuit/p2p/177"⟩ =
      .ok ⟨"/ip4/10.0.0.1/tcp/9001/p2p/178/p2p-circuit/p2p/177"⟩ ∧
    ¬ RoutesThrough ⟨"/ip4/10.0.0.1/tcp/90"⟩
      ⟨"/ip4/10.0.0.1/tcp/9001/p2p/178/p2p-circuit/p2p/177"⟩ :=
  ⟨⟨_, rfl⟩, by decide, rfl, by decide, ⟨_, rfl⟩, by decide, rfl, by decide⟩

end MeerkatNet.V2
