import Streamhaul.AssocMap
import Streamhaul.CryptoPrimitives

/-! The per-`(channel, direction, epoch)` HKDF ratchet. A chain that was built from
a base key and only ever advanced is determined by that key and its generation:
`chainAt` is this canonical chain, and the operations are equations between them. -/
namespace Streamhaul

def genWindow : Nat := 2
def genAheadLimit : Nat := 2
def ratchetLabel : Bytes := ascii "shp ratchet v1"

structure RatchetChain where
  maxGen : Nat
  liveKeys : AssocMap Nat Key
  deriving DecidableEq

namespace RatchetChain

def fromBaseKey (base : Key) : RatchetChain := ⟨0,AssocMap.empty.insert 0 base⟩

def deriveNextKey (h : Hkdf) (current : Key) : Except CryptoError Key :=
  match Hkdf.fromPrk (h.extract current.toList).toList with
  | none => .error .aeadFailure
  | some prk =>
    match h.expand prk ratchetLabel 32 with
    | none => .error .aeadFailure
    | some next => .ok next

/-- One turn of the advancing loop, including the eviction of old generations. -/
def advanceOnce (h : Hkdf) (c : RatchetChain) : Except CryptoError RatchetChain :=
  let nextGen := satAdd u32Max c.maxGen 1
  match c.liveKeys.get? c.maxGen with
  | none => .error .aeadFailure
  | some current =>
    match deriveNextKey h current with
    | .error e => .error e
    | .ok next =>
      let newFloor := nextGen - genWindow
      .ok ⟨nextGen,(c.liveKeys.insert nextGen next).retain (fun g => newFloor ≤ g)⟩

/-- The loop `while max_gen < gen`, bounded by the distance to `gen`. A failing turn
keeps the turns already made. -/
def advanceLoop (h : Hkdf) (gen : Nat) : Nat → RatchetChain → Except CryptoError Unit × RatchetChain
  | 0, c => (.ok (),c)
  | fuel + 1, c =>
    if c.maxGen < gen then
      match advanceOnce h c with
      | .error e => (.error e,c)
      | .ok next => advanceLoop h gen fuel next
    else (.ok (),c)

def getOrAdvanceTo (h : Hkdf) (c : RatchetChain) (gen : Nat) :
    Except CryptoError Key × RatchetChain :=
  if gen < c.maxGen - genWindow then (.error .replayedFrame,c)
  else if satAdd u32Max c.maxGen genAheadLimit < gen then
    (.error (.malformedChannelFrame "generation too far ahead"),c)
  else
    match advanceLoop h gen (gen - c.maxGen) c with
    | (.error e,c) => (.error e,c)
    | (.ok _,c) =>
      match c.liveKeys.get? gen with
      | none => (.error .aeadFailure,c)
      | some key => (.ok key,c)

def deriveSteps (h : Hkdf) : Nat → Key → Except CryptoError Key
  | 0, current => .ok current
  | steps + 1, current =>
    match deriveNextKey h current with
    | .error e => .error e
    | .ok next => deriveSteps h steps next

def deriveKeyTransient (h : Hkdf) (c : RatchetChain) (gen : Nat) : Except CryptoError Key :=
  if gen < c.maxGen - genWindow then .error .replayedFrame
  else if satAdd u32Max c.maxGen genAheadLimit < gen then
    .error (.malformedChannelFrame "generation too far ahead")
  else
    match c.liveKeys.get? gen with
    | some key => .ok key
    | none =>
      match c.liveKeys.get? c.maxGen with
      | none => .error .aeadFailure
      | some anchor => deriveSteps h (gen - c.maxGen) anchor

def commitAdvanceTo (h : Hkdf) (c : RatchetChain) (gen : Nat) :
    Except CryptoError Unit × RatchetChain := advanceLoop h gen (gen - c.maxGen) c

def nextKey (h : Hkdf) (current : Key) : Key :=
  h.okm (h.extract current.toList).toList ratchetLabel 32

def chainKey (h : Hkdf) (base : Key) (g : Nat) : Key := (nextKey h)^[g] base

@[simp] theorem deriveNextKey_eq (h : Hkdf) (current : Key) :
    deriveNextKey h current = .ok (nextKey h current) := by
  simp [deriveNextKey,nextKey]

theorem chainKey_succ (h : Hkdf) (base : Key) (g : Nat) :
    chainKey h base (g + 1) = nextKey h (chainKey h base g) :=
  Function.iterate_succ_apply' _ _ _

theorem deriveSteps_chainKey (h : Hkdf) (base : Key) (steps g : Nat) :
    deriveSteps h steps (chainKey h base g) = .ok (chainKey h base (g + steps)) := by
  induction steps generalizing g with
  | zero => rfl
  | succ steps ih =>
    simp only [deriveSteps,deriveNextKey_eq]
    rw [← chainKey_succ,ih,Nat.add_right_comm,Nat.add_assoc]

/-- The live generations `max(0, m - 2) ..= m` with their keys. -/
def liveEntries (h : Hkdf) (base : Key) (m : Nat) : List (Nat × Key) :=
  (List.range' (m - genWindow) (m + 1 - (m - genWindow))).map (fun g => (g,chainKey h base g))

theorem keys_liveEntries (h : Hkdf) (base : Key) (m : Nat) :
    (liveEntries h base m).map Prod.fst = List.range' (m - genWindow) (m + 1 - (m - genWindow)) := by
  simp [liveEntries,Function.comp_def]

/-- The chain anchored at `base` whose newest generation is `m`. -/
def chainAt (h : Hkdf) (base : Key) (m : Nat) : RatchetChain where
  maxGen := m
  liveKeys := ⟨liveEntries h base m,by rw [keys_liveEntries]; exact List.nodup_range'⟩

@[simp] theorem chainAt_maxGen (h : Hkdf) (base : Key) (m : Nat) : (chainAt h base m).maxGen = m := rfl

theorem fromBaseKey_eq (h : Hkdf) (base : Key) : fromBaseKey base = chainAt h base 0 := rfl

theorem lookup_map_range' (f : Nat → Key) (start count g : Nat) :
    AssocMap.lookup g ((List.range' start count).map (fun g => (g,f g))) =
      if start ≤ g ∧ g < start + count then some (f g) else none := by
  induction count generalizing start with
  | zero => simp [AssocMap.lookup]
  | succ count ih =>
    rw [List.range'_succ,List.map_cons,AssocMap.lookup,ih]
    by_cases same : start = g
    · subst same; simp
    · rw [if_neg same]
      exact if_congr (by omega) rfl rfl

theorem get?_chainAt (h : Hkdf) (base : Key) (m g : Nat) :
    (chainAt h base m).liveKeys.get? g =
      if m - genWindow ≤ g ∧ g ≤ m then some (chainKey h base g) else none := by
  apply (lookup_map_range' (chainKey h base) _ _ g).trans
  exact if_congr (by omega) rfl rfl

theorem filter_range' (start count floor : Nat) (within : floor ≤ start + count)
    (above : start ≤ floor) :
    (List.range' start count).filter (fun g => floor ≤ g) =
      List.range' floor (start + count - floor) := by
  induction count generalizing start with
  | zero =>
    have : floor = start := by omega
    simp [this]
  | succ count ih =>
    rw [List.range'_succ,List.filter_cons]
    by_cases keep : floor = start
    · subst keep
      have rest : (List.range' (floor + 1) count).filter (fun g => floor ≤ g) =
          List.range' (floor + 1) count := by
        apply List.filter_eq_self.mpr
        intro g member
        have := (List.mem_range'_1.mp member).1
        simp only [decide_eq_true_eq]; omega
      have width : floor + (count + 1) - floor = count + 1 := by omega
      rw [if_pos (by simp),rest,width,List.range'_succ]
    · have drop : ¬ floor ≤ start := by omega
      rw [if_neg (by simpa using drop),ih (start + 1) (by omega) (by omega)]
      congr 1
      omega

/-- A turn of the loop moves the canonical chain one generation on. -/
theorem advanceOnce_chainAt (h : Hkdf) (base : Key) (m : Nat) (room : m < u32Max) :
    advanceOnce h (chainAt h base m) = .ok (chainAt h base (m + 1)) := by
  have next : satAdd u32Max m 1 = m + 1 := satAdd_of_le room
  have anchor : (chainAt h base m).liveKeys.get? m = some (chainKey h base m) := by
    rw [get?_chainAt,if_pos ⟨Nat.sub_le _ _,le_rfl⟩]
  simp only [advanceOnce,chainAt_maxGen,next,anchor,deriveNextKey_eq,← chainKey_succ]
  congr 2
  apply AssocMap.ext_entries
  have fresh : m + 1 ∉ (liveEntries h base m).map Prod.fst := by
    rw [keys_liveEntries,List.mem_range'_1]; omega
  have extended : AssocMap.put (m + 1) (chainKey h base (m + 1)) (liveEntries h base m) =
      (List.range' (m - genWindow) (m + 2 - (m - genWindow))).map (fun g => (g,chainKey h base g)) := by
    have width : m + 2 - (m - genWindow) = (m + 1 - (m - genWindow)) + 1 := by omega
    have last : m - genWindow + (m + 1 - (m - genWindow)) = m + 1 := by omega
    rw [AssocMap.put_fresh _ _ _ fresh,liveEntries,width,List.range'_1_concat,List.map_append,last]
    rfl
  change (AssocMap.put (m + 1) (chainKey h base (m + 1)) (liveEntries h base m)).filter
    (fun entry => decide (m + 1 - genWindow ≤ entry.1)) = liveEntries h base (m + 1)
  rw [extended,List.filter_map]
  simp only [Function.comp_def]
  rw [filter_range' _ _ _ (by omega) (by omega),liveEntries]
  congr 2
  omega

theorem advanceLoop_chainAt (h : Hkdf) (base : Key) (gen : Nat) (bound : gen ≤ u32Max) (m fuel : Nat)
    (enough : gen ≤ m + fuel) :
    advanceLoop h gen fuel (chainAt h base m) = (.ok (),chainAt h base (max m gen)) := by
  induction fuel generalizing m with
  | zero => rw [advanceLoop,max_eq_left (by omega)]
  | succ fuel ih =>
    by_cases behind : m < gen
    · simp only [advanceLoop,chainAt_maxGen,if_pos behind,advanceOnce_chainAt h base m (by omega)]
      rw [ih (m + 1) (by omega),max_eq_right (by omega),max_eq_right (by omega)]
    · rw [advanceLoop,chainAt_maxGen,if_neg behind,max_eq_left (by omega)]

theorem commitAdvanceTo_chainAt (h : Hkdf) (base : Key) (m gen : Nat) (bound : gen ≤ u32Max) :
    commitAdvanceTo h (chainAt h base m) gen = (.ok (),chainAt h base (max m gen)) :=
  advanceLoop_chainAt h base gen bound m _ (by rw [chainAt_maxGen]; omega)

/-- Both lookups accept exactly the generations between the floor and the ahead limit. -/
def InWindow (m gen : Nat) : Prop := m - genWindow ≤ gen ∧ gen ≤ satAdd u32Max m genAheadLimit

theorem inWindow_zero_iff (gen : Nat) : InWindow 0 gen ↔ gen ≤ genAheadLimit := by
  simp [InWindow,satAdd,genAheadLimit,u32Max]

theorem not_inWindow {m gen : Nat} (outside : ¬ InWindow m gen) :
    gen < m - genWindow ∨ (¬ gen < m - genWindow ∧ satAdd u32Max m genAheadLimit < gen) := by
  unfold InWindow at outside
  omega

theorem getOrAdvanceTo_chainAt (h : Hkdf) (base : Key) (m gen : Nat) (inside : InWindow m gen) :
    getOrAdvanceTo h (chainAt h base m) gen =
      (.ok (chainKey h base gen),chainAt h base (max m gen)) := by
  have bound : gen ≤ u32Max := inside.2.trans (satAdd_le _ _ _)
  have ahead : gen ≤ m + genAheadLimit := inside.2.trans (Nat.min_le_left _ _)
  have found : (chainAt h base (max m gen)).liveKeys.get? gen = some (chainKey h base gen) := by
    rw [get?_chainAt,if_pos]
    have := inside.1
    simp only [genWindow,genAheadLimit] at *
    omega
  have loop := advanceLoop_chainAt h base gen bound m (gen - m) (by omega)
  simp only [getOrAdvanceTo,chainAt_maxGen,if_neg (Nat.not_lt.mpr inside.1),
    if_neg (Nat.not_lt.mpr inside.2),loop,found]

theorem deriveKeyTransient_chainAt (h : Hkdf) (base : Key) (m gen : Nat) (inside : InWindow m gen) :
    deriveKeyTransient h (chainAt h base m) gen = .ok (chainKey h base gen) := by
  have anchor : (chainAt h base m).liveKeys.get? m = some (chainKey h base m) := by
    rw [get?_chainAt,if_pos ⟨Nat.sub_le _ _,le_rfl⟩]
  simp only [deriveKeyTransient,chainAt_maxGen,if_neg (Nat.not_lt.mpr inside.1),
    if_neg (Nat.not_lt.mpr inside.2),get?_chainAt h base m gen]
  by_cases live : gen ≤ m
  · rw [if_pos ⟨inside.1,live⟩]
  · rw [if_neg (by omega)]
    simp only [anchor,deriveSteps_chainKey]
    rw [Nat.add_sub_cancel' (by omega)]

theorem lookups_outside (h : Hkdf) (c : RatchetChain) (gen : Nat) (outside : ¬ InWindow c.maxGen gen) :
    ∃ e, deriveKeyTransient h c gen = .error e ∧ getOrAdvanceTo h c gen = (.error e,c) := by
  unfold deriveKeyTransient getOrAdvanceTo
  rcases not_inWindow outside with old | ⟨recent,ahead⟩
  · exact ⟨_,if_pos old,if_pos old⟩
  · exact ⟨_,by rw [if_neg recent,if_pos ahead],by rw [if_neg recent,if_pos ahead]⟩

theorem deriveKeyTransient_outside (h : Hkdf) (c : RatchetChain) (gen : Nat)
    (outside : ¬ InWindow c.maxGen gen) : ∃ e, deriveKeyTransient h c gen = .error e := by
  obtain ⟨e,failed,-⟩ := lookups_outside h c gen outside
  exact ⟨e,failed⟩

theorem deriveKeyTransient_cleared (h : Hkdf) (m gen : Nat) :
    ∃ e, deriveKeyTransient h ⟨m,AssocMap.empty⟩ gen = .error e := by
  by_cases inside : InWindow m gen
  · exact ⟨.aeadFailure,by simp [deriveKeyTransient,Nat.not_lt.mpr inside.1,Nat.not_lt.mpr inside.2]⟩
  · exact deriveKeyTransient_outside h ⟨m,AssocMap.empty⟩ gen inside

theorem getOrAdvanceTo_outside (h : Hkdf) (c : RatchetChain) (gen : Nat)
    (outside : ¬ InWindow c.maxGen gen) : ∃ e, getOrAdvanceTo h c gen = (.error e,c) := by
  obtain ⟨e,-,failed⟩ := lookups_outside h c gen outside
  exact ⟨e,failed⟩

theorem advanceLoop_cleared (h : Hkdf) (gen fuel m : Nat) :
    (∃ e, advanceLoop h gen fuel ⟨m,AssocMap.empty⟩ = (.error e,⟨m,AssocMap.empty⟩)) ∨
      advanceLoop h gen fuel ⟨m,AssocMap.empty⟩ = (.ok (),⟨m,AssocMap.empty⟩) := by
  cases fuel with
  | zero => exact .inr rfl
  | succ fuel =>
    by_cases behind : m < gen
    · exact .inl ⟨.aeadFailure,by simp [advanceLoop,advanceOnce,behind]⟩
    · apply Or.inr
      simp [advanceLoop,behind]

theorem getOrAdvanceTo_cleared (h : Hkdf) (m gen : Nat) :
    ∃ e, getOrAdvanceTo h ⟨m,AssocMap.empty⟩ gen = (.error e,⟨m,AssocMap.empty⟩) := by
  by_cases inside : InWindow m gen
  · have floor := Nat.not_lt.mpr inside.1
    have ahead := Nat.not_lt.mpr inside.2
    rcases advanceLoop_cleared h gen (gen - m) m with ⟨e,failed⟩ | finished
    · exact ⟨e,by simp only [getOrAdvanceTo,if_neg floor,if_neg ahead,failed]⟩
    · refine ⟨.aeadFailure,?_⟩
      simp only [getOrAdvanceTo,if_neg floor,if_neg ahead,finished,AssocMap.get?_empty]
  · exact getOrAdvanceTo_outside h ⟨m,AssocMap.empty⟩ gen inside

inductive Call where
  | getOrAdvanceTo (gen : UInt32)
  | deriveKeyTransient (gen : UInt32)
  | commitAdvanceTo (gen : UInt32)

/-- The chain after a call; the transient lookup only reads it. -/
def after (h : Hkdf) (c : RatchetChain) : Call → RatchetChain
  | .getOrAdvanceTo gen => (c.getOrAdvanceTo h gen.toNat).2
  | .deriveKeyTransient _ => c
  | .commitAdvanceTo gen => (c.commitAdvanceTo h gen.toNat).2

theorem toNat_le_u32Max (gen : UInt32) : gen.toNat ≤ u32Max := by
  have := gen.toNat_lt
  simp only [u32Max]
  omega

theorem after_chainAt (h : Hkdf) (base : Key) {m : Nat} (bound : m ≤ u32Max) (call : Call) :
    ∃ m' ≤ u32Max, (chainAt h base m).after h call = chainAt h base m' := by
  cases call with
  | getOrAdvanceTo gen =>
    by_cases inside : InWindow m gen.toNat
    · exact ⟨max m gen.toNat,Nat.max_le.mpr ⟨bound,toNat_le_u32Max gen⟩,
        congrArg Prod.snd (getOrAdvanceTo_chainAt h base m gen.toNat inside)⟩
    · obtain ⟨e,failed⟩ := getOrAdvanceTo_outside h (chainAt h base m) gen.toNat inside
      exact ⟨m,bound,congrArg Prod.snd failed⟩
  | deriveKeyTransient gen => exact ⟨m,bound,rfl⟩
  | commitAdvanceTo gen =>
    exact ⟨max m gen.toNat,Nat.max_le.mpr ⟨bound,toNat_le_u32Max gen⟩,
      congrArg Prod.snd (commitAdvanceTo_chainAt h base m gen.toNat (toNat_le_u32Max gen))⟩

theorem calls_chainAt (h : Hkdf) (base : Key) (calls : List Call) :
    ∃ m ≤ u32Max, calls.foldl (after h) (fromBaseKey base) = chainAt h base m := by
  suffices run : ∀ m ≤ u32Max, ∃ m' ≤ u32Max, calls.foldl (after h) (chainAt h base m) = chainAt h base m' from
    run 0 (Nat.zero_le _)
  induction calls with
  | nil => exact fun m bound => ⟨m,bound,rfl⟩
  | cons call rest ih =>
    intro m bound
    obtain ⟨next,bound',stepped⟩ := after_chainAt h base bound call
    simp only [List.foldl_cons,stepped]
    exact ih next bound'

theorem inWindow_iff {m : Nat} (gen : UInt32) :
    InWindow m gen.toNat ↔ m - 2 ≤ gen.toNat ∧ gen.toNat ≤ m + 2 := by
  have := toNat_le_u32Max gen
  simp only [InWindow,satAdd,genWindow,genAheadLimit]
  omega

/-- After any calls the live keys are those of the window, each derived from the base key, and the
read-only lookup agrees with the one that advances. -/
theorem lookups_agree (h : Hkdf) (base : Key) (calls : List Call) :
    let c := calls.foldl (after h) (fromBaseKey base)
    (∀ g, (c.liveKeys.get? g).isSome ↔ c.maxGen - 2 ≤ g ∧ g ≤ c.maxGen) ∧
    (∀ g key, c.liveKeys.get? g = some key → deriveSteps h g base = .ok key) ∧
    ∀ gen : UInt32,
      (c.maxGen - 2 ≤ gen.toNat ∧ gen.toNat ≤ c.maxGen + 2 →
        ∃ key, c.deriveKeyTransient h gen.toNat = .ok key ∧ (c.getOrAdvanceTo h gen.toNat).1 = .ok key) ∧
      (¬(c.maxGen - 2 ≤ gen.toNat ∧ gen.toNat ≤ c.maxGen + 2) →
        ∃ e, c.deriveKeyTransient h gen.toNat = .error e ∧ c.getOrAdvanceTo h gen.toNat = (.error e,c)) := by
  intro c
  obtain ⟨m,-,canonical⟩ := calls_chainAt h base calls
  have shape : c = chainAt h base m := canonical
  rw [shape,chainAt_maxGen]
  refine ⟨fun g => ?_,fun g key live => ?_,fun gen => ⟨fun inside => ?_,fun outside => ?_⟩⟩
  · rw [get?_chainAt]
    by_cases live : m - genWindow ≤ g ∧ g ≤ m
    · exact iff_of_true (by rw [if_pos live]; rfl) live
    · exact iff_of_false (by rw [if_neg live]; exact Bool.false_ne_true) live
  · rw [get?_chainAt] at live
    split_ifs at live with inside
    have derived := deriveSteps_chainKey h base g 0
    rw [Nat.zero_add,Option.some.inj live] at derived
    exact derived
  · have window := (inWindow_iff gen).mpr inside
    exact ⟨_,deriveKeyTransient_chainAt h base m gen.toNat window,
      congrArg Prod.fst (getOrAdvanceTo_chainAt h base m gen.toNat window)⟩
  · exact lookups_outside h (chainAt h base m) gen.toNat (fun window => outside ((inWindow_iff gen).mp window))

/-- A chain that committed to generation four and was asked for an old one serves generation six either way. -/
theorem committed_chain_agrees :
    let c := [.commitAdvanceTo 4,.getOrAdvanceTo 1].foldl (after Transparent.hkdf) (fromBaseKey (Vector.replicate 32 1))
    ∃ key, c.deriveKeyTransient Transparent.hkdf 6 = .ok key ∧ (c.getOrAdvanceTo Transparent.hkdf 6).1 = .ok key :=
  ((lookups_agree Transparent.hkdf (Vector.replicate 32 1) [.commitAdvanceTo 4,.getOrAdvanceTo 1]).2.2 6).1 (by decide)

end RatchetChain

end Streamhaul
