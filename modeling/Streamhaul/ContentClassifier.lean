import Streamhaul.Bytes
import Streamhaul.Dwell

/-! The content classifier: scores move a machine between the modes Work, Scrolling and Game, with thresholds
for entering and leaving and a dwell time for every change. The machine only compares scores, so they
are the elements of any linear order. -/
namespace Streamhaul

inductive ContentMode where
  | work | scrolling | game
  deriving DecidableEq

def gameEnterDwell : Nat := 8
def gameExitDwell : Nat := 30
def scrollEnterDwell : Nat := 4
def scrollExitDwell : Nat := 10

/-- The thresholds, in the order in which they stand: 0.25, 0.35, 0.40 and 0.65. -/
structure Thresholds (Score : Type) [LinearOrder Score] where
  scrollExit : Score
  scrollEnter : Score
  gameExit : Score
  gameEnter : Score
  scroll_hysteresis : scrollExit < scrollEnter
  bands : scrollEnter < gameExit
  game_hysteresis : gameExit < gameEnter

inductive FsmState where
  | work (scrollCounter : Nat)
  | workToGame (counter : Nat)
  | scrolling (gameCounter exitCounter : Nat)
  | game (exitCounter : Nat)
  deriving DecidableEq

def FsmState.mode : FsmState → ContentMode
  | .work _ => .work
  | .workToGame _ => .work
  | .scrolling _ _ => .scrolling
  | .game _ => .game

namespace ContentClassifier

def new : FsmState := .work 0

section Order

variable {Score : Type} [LinearOrder Score] (t : Thresholds Score)

def advance (state : FsmState) (score : Score) : FsmState :=
  match state with
  | .work scrollCounter =>
    if t.gameEnter < score then .workToGame 1
    else if t.scrollEnter < score then
      let next := satAdd u32Max scrollCounter 1
      if scrollEnterDwell ≤ next then .scrolling 0 0 else .work next
    else .work 0
  | .workToGame counter =>
    if t.gameEnter < score then
      let next := satAdd u32Max counter 1
      if gameEnterDwell ≤ next then .game 0 else .workToGame next
    -- out of the game band: towards scrolling, or not at all
    else if t.scrollEnter < score then .work 1
    else .work 0
  | .scrolling gameCounter exitCounter =>
    if t.gameEnter < score then
      let next := satAdd u32Max gameCounter 1
      if gameEnterDwell ≤ next then .game 0 else .scrolling next 0
    else if score < t.scrollExit then
      let next := satAdd u32Max exitCounter 1
      if scrollExitDwell ≤ next then .work 0 else .scrolling 0 next
    else .scrolling 0 0
  | .game exitCounter =>
    if score < t.gameExit then
      let next := satAdd u32Max exitCounter 1
      if gameExitDwell ≤ next then .work 0 else .game next
    else .game 0

/-- The swappable provider turns signals into a score. -/
def onTick {Signals : Type} (score : Signals → Score) (state : FsmState) (signals : Signals) : ContentMode × FsmState :=
  let state := advance t state (score signals)
  (state.mode,state)

/-! What the machine is for: a mode is left when the score has been beyond a threshold for the whole of a dwell
time. -/

def high (score : Score) : Bool := t.gameEnter < score

/-- Above the entry of Scrolling, but not of Game. -/
def middle (score : Score) : Bool := t.scrollEnter < score ∧ ¬t.gameEnter < score

def low (score : Score) : Bool := score < t.scrollExit

def belowGame (score : Score) : Bool := score < t.gameExit

def exits : ContentMode → List (Dwell.Exit ContentMode Score)
  | .work => [⟨high t,gameEnterDwell,.game⟩,⟨middle t,scrollEnterDwell,.scrolling⟩]
  | .scrolling => [⟨high t,gameEnterDwell,.game⟩,⟨low t,scrollExitDwell,.work⟩]
  | .game => [⟨belowGame t,gameExitDwell,.work⟩]

/-- The counters of a state are the lengths of the streaks that they count, and none has run out. -/
def Counts (state : FsmState) (stay : Dwell.Stay ContentMode Score) : Prop :=
  stay.mode = state.mode ∧
  match state with
  | .work n => Dwell.streak (high t) stay.since = 0 ∧ Dwell.streak (middle t) stay.since = n ∧ n < scrollEnterDwell
  | .workToGame n => Dwell.streak (high t) stay.since = n ∧ Dwell.streak (middle t) stay.since = 0 ∧ n < gameEnterDwell
  | .scrolling n m => Dwell.streak (high t) stay.since = n ∧ Dwell.streak (low t) stay.since = m ∧
      n < gameEnterDwell ∧ m < scrollExitDwell
  | .game n => Dwell.streak (belowGame t) stay.since = n ∧ n < gameExitDwell

theorem counts_new : Counts t new ⟨.work,[]⟩ := ⟨rfl,rfl,rfl,by decide⟩

theorem satAdd_one {n dwell : Nat} (below : n < dwell) (small : dwell ≤ u32Max) : satAdd u32Max n 1 = n + 1 :=
  satAdd_of_le (by omega)

section Next

variable {t} {score : Score} {since : List Score} {n m : Nat}

theorem counts_work (none_high : Dwell.streak (high t) since = 0) (count : Dwell.streak (middle t) since = n)
    (short : n < scrollEnterDwell) :
    Counts t (advance t (.work n) score) (Dwell.next (exits t) ⟨.work,since⟩ score).2 := by
  by_cases above : t.gameEnter < score
  · have isHigh : high t score = true := by simp [high,above]
    have notMiddle : middle t score = false := by simp [middle,above]
    simp [advance,above,Dwell.next,exits,Dwell.Exit.fires,Dwell.streak_concat,isHigh,notMiddle,none_high,
      gameEnterDwell,scrollEnterDwell,Counts,FsmState.mode]
  · have notHigh : high t score = false := by simp [high,above]
    by_cases between : t.scrollEnter < score
    · have isMiddle : middle t score = true := by simp [middle,above,between]
      have next := satAdd_one short (by decide)
      by_cases out : scrollEnterDwell ≤ n + 1
      · simp [advance,above,between,next,out,Dwell.next,exits,Dwell.Exit.fires,Dwell.streak_concat,isMiddle,notHigh,count,
          gameEnterDwell,scrollExitDwell,Counts,FsmState.mode]
      · have more : n + 1 < scrollEnterDwell := Nat.not_le.mp out
        simp [advance,above,between,next,out,Dwell.next,exits,Dwell.Exit.fires,Dwell.streak_concat,isMiddle,notHigh,count,
          gameEnterDwell,Counts,FsmState.mode,more]
    · have notMiddle : middle t score = false := by simp [middle,between]
      simp [advance,above,between,Dwell.next,exits,Dwell.Exit.fires,Dwell.streak_concat,notMiddle,notHigh,
        gameEnterDwell,scrollEnterDwell,Counts,FsmState.mode]

theorem counts_workToGame (count : Dwell.streak (high t) since = n) (none_middle : Dwell.streak (middle t) since = 0)
    (short : n < gameEnterDwell) :
    Counts t (advance t (.workToGame n) score) (Dwell.next (exits t) ⟨.work,since⟩ score).2 := by
  by_cases above : t.gameEnter < score
  · have isHigh : high t score = true := by simp [high,above]
    have notMiddle : middle t score = false := by simp [middle,above]
    have next := satAdd_one short (by decide)
    by_cases out : gameEnterDwell ≤ n + 1
    · simp [advance,above,next,out,Dwell.next,exits,Dwell.Exit.fires,Dwell.streak_concat,isHigh,count,
        gameExitDwell,Counts,FsmState.mode]
    · have more : n + 1 < gameEnterDwell := Nat.not_le.mp out
      simp [advance,above,next,out,Dwell.next,exits,Dwell.Exit.fires,Dwell.streak_concat,isHigh,notMiddle,count,
        scrollEnterDwell,Counts,FsmState.mode,more]
  · have notHigh : high t score = false := by simp [high,above]
    by_cases between : t.scrollEnter < score
    · have isMiddle : middle t score = true := by simp [middle,above,between]
      simp [advance,above,between,Dwell.next,exits,Dwell.Exit.fires,Dwell.streak_concat,isMiddle,notHigh,none_middle,
        gameEnterDwell,scrollEnterDwell,Counts,FsmState.mode]
    · have notMiddle : middle t score = false := by simp [middle,between]
      simp [advance,above,between,Dwell.next,exits,Dwell.Exit.fires,Dwell.streak_concat,notMiddle,notHigh,
        gameEnterDwell,scrollEnterDwell,Counts,FsmState.mode]

theorem counts_scrolling (games : Dwell.streak (high t) since = n) (lows : Dwell.streak (low t) since = m)
    (short : n < gameEnterDwell) (short' : m < scrollExitDwell) :
    Counts t (advance t (.scrolling n m) score) (Dwell.next (exits t) ⟨.scrolling,since⟩ score).2 := by
  by_cases above : t.gameEnter < score
  · have isHigh : high t score = true := by simp [high,above]
    have notLow : low t score = false := by
      have order := t.scroll_hysteresis.trans (t.bands.trans (t.game_hysteresis.trans above))
      simp [low,order.le]
    have next := satAdd_one short (by decide)
    by_cases out : gameEnterDwell ≤ n + 1
    · simp [advance,above,next,out,Dwell.next,exits,Dwell.Exit.fires,Dwell.streak_concat,isHigh,games,
        gameExitDwell,Counts,FsmState.mode]
    · have more : n + 1 < gameEnterDwell := Nat.not_le.mp out
      simp [advance,above,next,out,Dwell.next,exits,Dwell.Exit.fires,Dwell.streak_concat,isHigh,notLow,games,
        scrollExitDwell,Counts,FsmState.mode,more]
  · have notHigh : high t score = false := by simp [high,above]
    by_cases below : score < t.scrollExit
    · have isLow : low t score = true := by simp [low,below]
      have next := satAdd_one short' (by decide)
      by_cases out : scrollExitDwell ≤ m + 1
      · simp [advance,above,below,next,out,Dwell.next,exits,Dwell.Exit.fires,Dwell.streak_concat,isLow,notHigh,lows,
          gameEnterDwell,scrollEnterDwell,Counts,FsmState.mode]
      · have more : m + 1 < scrollExitDwell := Nat.not_le.mp out
        simp [advance,above,below,next,out,Dwell.next,exits,Dwell.Exit.fires,Dwell.streak_concat,isLow,notHigh,lows,
          gameEnterDwell,Counts,FsmState.mode,more]
    · have notLow : low t score = false := by simpa [low] using below
      simp [advance,above,below,Dwell.next,exits,Dwell.Exit.fires,Dwell.streak_concat,notLow,notHigh,
        gameEnterDwell,scrollExitDwell,Counts,FsmState.mode]

theorem counts_game (count : Dwell.streak (belowGame t) since = n) (short : n < gameExitDwell) :
    Counts t (advance t (.game n) score) (Dwell.next (exits t) ⟨.game,since⟩ score).2 := by
  by_cases below : score < t.gameExit
  · have isBelow : belowGame t score = true := by simp [belowGame,below]
    have next := satAdd_one short (by decide)
    by_cases out : gameExitDwell ≤ n + 1
    · simp [advance,below,next,out,Dwell.next,exits,Dwell.Exit.fires,Dwell.streak_concat,isBelow,count,
        scrollEnterDwell,Counts,FsmState.mode]
    · have more : n + 1 < gameExitDwell := Nat.not_le.mp out
      simp [advance,below,next,out,Dwell.next,exits,Dwell.Exit.fires,Dwell.streak_concat,isBelow,count,
        Counts,FsmState.mode,more]
  · have notBelow : belowGame t score = false := by simpa [belowGame] using below
    simp [advance,below,Dwell.next,exits,Dwell.Exit.fires,Dwell.streak_concat,notBelow,
      gameExitDwell,Counts,FsmState.mode]

theorem counts_advance {state : FsmState} {stay : Dwell.Stay ContentMode Score} (counts : Counts t state stay)
    (score : Score) :
    Counts t (advance t state score) (Dwell.next (exits t) stay score).2 := by
  obtain ⟨mode,since⟩ := stay
  obtain ⟨rfl,counted⟩ := counts
  cases state with
  | work n => exact counts_work counted.1 counted.2.1 counted.2.2
  | workToGame n => exact counts_workToGame counted.1 counted.2.1 counted.2.2
  | scrolling n m => exact counts_scrolling counted.1 counted.2.1 counted.2.2.1 counted.2.2.2
  | game n => exact counts_game counted.1 counted.2

end Next

variable {Signals : Type} (score : Signals → Score)

def modes (ticks : List Signals) : List ContentMode :=
  (Machine.trace (onTick t score) new ticks).map Machine.Event.response

theorem lockstep_new (ticks : List Signals) :
    modes t score ticks = Dwell.modes (exits t) ⟨.work,[]⟩ (ticks.map score) ∧
      Counts t (Machine.final (onTick t score) new ticks)
        (Machine.final (Dwell.next (exits t)) ⟨.work,[]⟩ (ticks.map score)) := by
  have like : List.Forall₂ (fun signals reading => reading = score signals) ticks (ticks.map score) := by
    rw [List.forall₂_map_right_iff,List.forall₂_same]
    exact fun _ _ => rfl
  refine Machine.lockstep (onTick t score) (Dwell.next (exits t)) (Counts t) _ _ _ ?_ (counts_new t) like
  rintro state stay signals _ counts rfl
  have after := counts_advance counts (score signals)
  exact ⟨after,after.1.symm⟩

/-- With its few counters the classifier does what the whole history of scores calls for: it reports the modes of
the specification, and each counter is the number of scores in a row that it stands for. -/
theorem classifier_refines (ticks : List Signals) :
    modes t score ticks = Dwell.modes (exits t) ⟨.work,[]⟩ (ticks.map score) ∧
      Counts t (Machine.final (onTick t score) new ticks)
        (Machine.final (Dwell.next (exits t)) ⟨.work,[]⟩ (ticks.map score)) := lockstep_new t score ticks

/-- The dwell time of a change; no other change is made. -/
def dwellOf : ContentMode → ContentMode → Nat
  | .work, .scrolling => scrollEnterDwell
  | .work, .game => gameEnterDwell
  | .scrolling, .game => gameEnterDwell
  | .scrolling, .work => scrollExitDwell
  | .game, .work => gameExitDwell
  | _, _ => 0

theorem dwellOf_exit {mode : ContentMode} {exit : Dwell.Exit ContentMode Score} (member : exit ∈ exits t mode) :
    dwellOf mode exit.target = exit.dwell ∧ 0 < exit.dwell := by
  cases mode <;> simp only [exits,List.mem_cons,List.not_mem_nil,or_false] at member
  · rcases member with rfl | rfl <;> exact ⟨rfl,Nat.zero_lt_succ _⟩
  · rcases member with rfl | rfl <;> exact ⟨rfl,Nat.zero_lt_succ _⟩
  · obtain rfl := member
    exact ⟨rfl,Nat.zero_lt_succ _⟩

/-- The classifier does not flap: whatever the scores, each change of mode is one of five, and the dwell times of
all changes together are no longer than the run. -/
theorem mode_changes_paid (ticks : List Signals) :
    (∀ change ∈ Dwell.changes .work (modes t score ticks), 0 < dwellOf change.1 change.2) ∧
      ((Dwell.changes .work (modes t score ticks)).map (fun change => dwellOf change.1 change.2)).sum ≤ ticks.length := by
  have same := (lockstep_new t score ticks).1
  obtain ⟨known,paid⟩ := Dwell.changes_taken (exits t) dwellOf
    (fun mode exit member => (dwellOf_exit t member).1.le) ⟨.work,[]⟩ (ticks.map score)
  have covered := Dwell.taken_paid (exits t) ⟨.work,[]⟩ (ticks.map score)
  rw [← same] at known paid
  constructor
  · intro change member
    obtain ⟨exit,listed,target⟩ := known change member
    rw [← target,(dwellOf_exit t listed).1]
    exact (dwellOf_exit t listed).2
  · simp only [List.length_nil,List.length_map,Nat.zero_add] at covered
    exact paid.trans (Nat.le_of_add_right_le covered)

end Order

def thresholds : Thresholds ℚ where
  scrollExit := 25 / 100
  scrollEnter := 35 / 100
  gameExit := 40 / 100
  gameEnter := 65 / 100
  scroll_hysteresis := by norm_num
  bands := by norm_num
  game_hysteresis := by norm_num

example : modes thresholds id (List.replicate 4 (1 / 2) ++ List.replicate 8 1) =
    List.replicate 3 .work ++ List.replicate 8 .scrolling ++ [.game] := by decide +kernel

end ContentClassifier

end Streamhaul
