import Streamhaul.ChannelSession

/-! A refused frame changes nothing. The commit after a verified tag cannot fail on a
chain that was only ever advanced, and an erased chain never reaches the commit, so
it is enough that every call keeps the chains of a session intact. -/
namespace Streamhaul

open RatchetChain

namespace EpochKeys

theorem get?_zeroizeEpochKeys (e : EpochKeys) (c : ChannelId) (d : Direction) :
    e.zeroizeEpochKeys.get? c d = (e.get? c d).map ChannelState.zeroize := by
  simp [get?,zeroizeEpochKeys]

theorem zeroizeEpochKeys_intact (h : Hkdf) (e : EpochKeys) (intact : e.Intact h) :
    e.zeroizeEpochKeys.Intact h := by
  intro c d
  obtain ⟨st,found,-⟩ := intact c d
  exact ⟨st.zeroize,by rw [get?_zeroizeEpochKeys,found]; rfl,.inr rfl⟩

end EpochKeys

namespace SessionKeys

theorem fromOutcome_intact (h : Hkdf) (outcome : HandshakeOutcome) (now : Int) (k : SessionKeys)
    (created : fromOutcome h outcome now = .ok k) : k.Intact h := by
  rw [fromOutcome_eq] at created
  cases created
  exact ⟨(EpochKeys.freshEpoch_anchored h _ 0 now).intact,fun p retained => by simp at retained⟩

theorem sealFrame_keeps_intact (h : Hkdf) (aead : Aead) (k : SessionKeys) (intact : k.Intact h)
    (channel : ChannelId) (plaintext : Bytes) : (k.sealFrame h aead channel plaintext).2.Intact h := by
  obtain ⟨st,found,chain⟩ := intact.current channel k.sendDirection
  have keeps := st.sealFrame_intact h aead chain channel k.sendDirection k.current.epoch plaintext
  rcases outcome : st.sealFrame h aead channel k.sendDirection k.current.epoch plaintext with
    ⟨(e | frame),st'⟩
  · rw [outcome] at keeps
    rw [sealFrame_error found outcome]
    exact ⟨intact.current.set keeps,intact.prior⟩
  · rw [outcome] at keeps
    rw [sealFrame_ok found outcome]
    exact ⟨intact.current.set keeps,intact.prior⟩

theorem opened_intact {h : Hkdf} {aead : Aead} {st st' : ChannelState} {header : ChannelFrameHeader}
    {frame plaintext : Bytes} (intact : st.ratchet.Intact h)
    (opened : st.openFrame h aead header frame = (.ok plaintext,st')) : st'.ratchet.Intact h := by
  rcases st.openFrame_intact h aead intact header frame with ⟨e,refused⟩ | ⟨base,_,accepted⟩
  · rw [opened] at refused
    simp at refused
  · rw [opened,Prod.mk.injEq] at accepted
    rw [accepted.2]
    exact st.accepted_intact h base header

theorem openFrame_keeps_intact (h : Hkdf) (aead : Aead) (k : SessionKeys) (intact : k.Intact h)
    (now : Int) (channel : ChannelId) (frame : Bytes) :
    (k.openFrame h aead now channel frame).2.Intact h := by
  have outcome := openFrame_outcome h aead k intact now channel frame
  generalize k.openFrame h aead now channel frame = result at outcome ⊢
  cases outcome with
  | refused e => exact intact
  | current header st st' plaintext addressed epoch room found opened =>
    exact ⟨intact.current.set (opened_intact (intact.current.at found) opened),intact.prior⟩
  | prior header p st st' plaintext addressed epoch retained found opened =>
    refine ⟨intact.current,fun q kept => ?_⟩
    cases kept
    have slots := intact.prior p retained
    exact slots.set (opened_intact (slots.at found) opened)
  | next header st' plaintext addressed epoch opened =>
    have fresh := (EpochKeys.freshEpoch_anchored h k.session.prk header.epoch now).intact
    refine ⟨fresh.set (opened_intact (fresh.at (EpochKeys.get?_freshEpoch ..)) opened),fun q kept => ?_⟩
    cases kept
    exact intact.current

theorem step_intact (h : Hkdf) (aead : Aead) (k : SessionKeys) (call : Call) (intact : k.Intact h) :
    (k.step h aead call).2.Intact h := by
  cases call with
  | sealFrame channel plaintext => exact sealFrame_keeps_intact h aead k intact channel plaintext
  | openFrame now channel frame => exact openFrame_keeps_intact h aead k intact now channel frame
  | rekey now =>
    simp only [step,rekey_eq]
    refine ⟨(EpochKeys.freshEpoch_anchored h _ _ now).intact,fun q kept => ?_⟩
    cases kept
    exact intact.current
  | closeGracePeriod => exact ⟨intact.current,fun q kept => by simp [step,closeGracePeriod] at kept⟩
  | zeroizeAll =>
    exact ⟨EpochKeys.zeroizeEpochKeys_intact h _ intact.current,
      fun q kept => by simp [step,zeroizeAll] at kept⟩

theorem reachable_intact (h : Hkdf) (aead : Aead) (outcome : HandshakeOutcome) (now : Int)
    (k₀ k : SessionKeys) (created : fromOutcome h outcome now = .ok k₀)
    (reachable : Machine.Reachable (step h aead) k₀ k) : k.Intact h := by
  obtain ⟨calls,rfl⟩ := reachable
  exact Machine.final_invariant _ (fun _ _ => True) _
    (fun s call _ intact => step_intact h aead s call intact) k₀ calls
    (fromOutcome_intact h outcome now k₀ created) (fun _ _ => trivial)

/-- Hostile frames change nothing, in any state a session can reach. -/
theorem openFrame_error_unchanged (h : Hkdf) (aead : Aead) (outcome : HandshakeOutcome) (now : Int)
    (k₀ k : SessionKeys) (created : fromOutcome h outcome now = .ok k₀)
    (reachable : Machine.Reachable (step h aead) k₀ k) (clock : Int) (channel : ChannelId)
    (frame : Bytes) (e : CryptoError)
    (failed : (k.openFrame h aead clock channel frame).1 = .error e) :
    (k.openFrame h aead clock channel frame).2 = k := by
  have intact := reachable_intact h aead outcome now k₀ k created reachable
  have outcome := openFrame_outcome h aead k intact clock channel frame
  generalize k.openFrame h aead clock channel frame = result at failed outcome ⊢
  cases outcome with
  | refused e => rfl
  | current | prior | next => simp at failed

/-- After a rekey, a frame of the new epoch whose tag does not verify. -/
theorem openFrame_error_unchanged_forged :
    let step := step Transparent.hkdf Transparent.aead
    let k := Machine.final step (Transparent.session .responder) [.rekey 5]
    let frame := ChannelFrameHeader.encode ⟨.control,.i2r,1,0,0⟩ ++ List.replicate 16 0
    let result := k.openFrame Transparent.hkdf Transparent.aead 6 .control frame
    result.1 = .error .aeadFailure ∧ result.2 = k :=
  ⟨rfl,openFrame_error_unchanged _ _ (Transparent.outcome .responder) 0 (Transparent.session .responder) _
    (Transparent.session_created .responder) ⟨[.rekey 5],rfl⟩ 6 .control _ .aeadFailure rfl⟩

end SessionKeys

end Streamhaul
