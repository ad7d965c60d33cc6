import FleetPosture.Proofs.Ssh.Checked
import FleetPosture.Proofs.Tls.Checked.Exchange

/-! No server can crash or stop a probe by its bytes. Reading them by position, with every access,
sum, difference and round of a loop checked, gives what reading them piece by piece gives: a reply or
a fault, and never a breach. -/

namespace FleetPosture

/-- The TLS exchange and both kinds of SSH connection stay in bounds and end, and each turn of their
loops takes a record or a packet of at least six bytes off the stream or is the last. -/
theorem server_bytes_in_bounds :
    (∀ o ending s, Tls.checkedExchange o ending s = .ok (Tls.exchange o ending .start .empty s)) ∧
      (∀ o ending (r : Tls.Reading),
        Tls.recordTurn o ending r =
            .ok (.inr (Tls.exchange o ending r.flight r.buffer r.unread)) ∨
          ∃ next : Tls.Reading, Tls.recordTurn o ending r = .ok (.inl next) ∧
            Tls.exchange o ending next.flight next.buffer next.unread =
              Tls.exchange o ending r.flight r.buffer r.unread ∧
            next.unread.length + 6 ≤ r.unread.length) ∧
      (∀ peer, Ssh.checkedListing peer = .ok (Ssh.listing peer)) ∧
      (∀ peer family randoms,
        Ssh.checkedKeyExchange peer family randoms = .ok (Ssh.keyExchange peer family randoms)) ∧
      (∀ ending s,
        Ssh.packetTurn ending Ssh.checkedJudgeKexInit s =
            .ok (.inr (Ssh.await ending Ssh.judgeKexInit s)) ∨
          ∃ rest, Ssh.packetTurn ending Ssh.checkedJudgeKexInit s = .ok (.inl rest) ∧
            Ssh.await ending Ssh.judgeKexInit rest = Ssh.await ending Ssh.judgeKexInit s ∧
            rest.length + 6 ≤ s.length) ∧
      ∀ ending s,
        Ssh.packetTurn ending Ssh.checkedJudgeReply s =
            .ok (.inr (Ssh.await ending Ssh.judgeReply s)) ∨
          ∃ rest, Ssh.packetTurn ending Ssh.checkedJudgeReply s = .ok (.inl rest) ∧
            Ssh.await ending Ssh.judgeReply rest = Ssh.await ending Ssh.judgeReply s ∧
            rest.length + 6 ≤ s.length :=
  ⟨Tls.checkedExchange_eq, Tls.recordTurn_exchange, Ssh.checkedListing_eq,
    Ssh.checkedKeyExchange_eq, Ssh.packetTurn_await Ssh.checkedJudgeKexInit_eq,
    Ssh.packetTurn_await Ssh.checkedJudgeReply_eq⟩

end FleetPosture
