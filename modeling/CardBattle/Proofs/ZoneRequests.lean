import CardBattle.Proofs.ZoneMoves
import Mathlib.Data.List.Induction

/-!
# Requests on zones

The zones of a player are only ever changed by five requests: to put a copy in, to take one out, to
move one, to draw the top one, and to put a zone into a new order. Whatever requests were made
since the zones were empty, no copy occurs twice. A request is then refused for the reason it
states or done completely; above all a move cannot lose its copy between the two zones.
-/

namespace CardBattle

def Position.slot (position : Position) (length : Nat) : Nat :=
  match position with
  | .top => length
  | .bottom => 0
  | .index i => min i length

/-- A slot is never above the top. -/
theorem Position.slot_le (position : Position) (length : Nat) :
    position.slot length ≤ length := by
  cases position with
  | top => exact Nat.le_refl _
  | bottom => exact Nat.zero_le _
  | index i => exact Nat.min_le_right _ _

theorem insertIdx_min (id : InstanceId) (i : Nat) (cards : List InstanceId) :
    cards.insertIdx (min i cards.length) id = cards.take i ++ id :: cards.drop i := by
  induction cards generalizing i with
  | nil => simp
  | cons card cards ih =>
    cases i with
    | zero => simp
    | succ i =>
      rw [List.length_cons, Nat.succ_min_succ, List.insertIdx_succ_cons, ih i]
      simp

/-- A card is put where its position says, an index past the end being the top. -/
theorem Position.place_eq_insertIdx (position : Position) (id : InstanceId)
    (cards : List InstanceId) :
    position.place id cards = cards.insertIdx (position.slot cards.length) id := by
  cases position with
  | top => exact List.insertIdx_length_self.symm
  | bottom => exact List.insertIdx_zero.symm
  | index i => exact (insertIdx_min id i cards).symm

namespace Zones

/-- What may be asked of the zones of a player. -/
inductive Request where
  | push (zone : Zone) (id : InstanceId) (position : Position)
  | remove (zone : Zone) (id : InstanceId)
  | move (id : InstanceId) (source destination : Zone) (position : Position)
  | popTop (zone : Zone)
  | reorder (zone : Zone) (order : List InstanceId)
  deriving DecidableEq, Repr

inductive Answer where
  | refused
  | done
  | drawn (id : InstanceId)
  deriving DecidableEq, Repr

/-- Serves one request. A move that is refused by its destination has already left its source. -/
def serve (z : Zones) : Request → Answer × Zones
  | .push zone id position =>
    match z.push? zone id position with
    | none => (.refused, z)
    | some z' => (.done, z')
  | .remove zone id =>
    match z.remove? zone id with
    | none => (.refused, z)
    | some z' => (.done, z')
  | .move id source destination position =>
    match z.move id source destination position with
    | .absent => (.refused, z)
    | .refused left => (.refused, left)
    | .moved z' => (.done, z')
  | .popTop zone =>
    match z.popTop? zone with
    | none => (.refused, z)
    | some (id, z') => (.drawn id, z')
  | .reorder zone order =>
    match z.reorder? zone order with
    | none => (.refused, z)
    | some z' => (.done, z')

def after (requests : List Request) : Zones :=
  requests.foldl (fun z request => (z.serve request).2) empty

/-! ### What a request asks for -/

def Due (z : Zones) : Request → Prop
  | .push _ id _ => id ∉ z.allInstances
  | .remove zone id => id ∈ z.cards zone
  | .move id source _ _ => id ∈ z.cards source
  | .popTop zone => z.cards zone ≠ []
  | .reorder zone order => order.Perm (z.cards zone)

def SameBeside (changed : List Zone) (z z' : Zones) : Prop :=
  ∀ zone, zone ∉ changed → z'.cards zone = z.cards zone

/-- A copy is added to one zone. -/
structure Put (z : Zones) (zone : Zone) (id : InstanceId) (position : Position) (z' : Zones) :
    Prop where
  inserted : z'.cards zone = (z.cards zone).insertIdx (position.slot (z.cards zone).length) id
  beside : SameBeside [zone] z z'

structure Taken (z : Zones) (zone : Zone) (id : InstanceId) (z' : Zones) : Prop where
  cut : ∃ below above, z.cards zone = below ++ id :: above ∧ z'.cards zone = below ++ above
  beside : SameBeside [zone] z z'

/-- What each request does when it is granted, and what is answered. -/
inductive Granted (z : Zones) : Request → Answer → Zones → Prop where
  | push {zone : Zone} {id : InstanceId} {position : Position} {z' : Zones}
      (put : z.Put zone id position z') : Granted z (.push zone id position) .done z'
  | remove {zone : Zone} {id : InstanceId} {z' : Zones} (taken : z.Taken zone id z') :
      Granted z (.remove zone id) .done z'
  | move {id : InstanceId} {source destination : Zone} {position : Position} {left z' : Zones}
      (taken : z.Taken source id left) (put : left.Put destination id position z')
      (kept : z'.allInstances.Perm z.allInstances)
      (beside : SameBeside [source, destination] z z') :
      Granted z (.move id source destination position) .done z'
  | popTop {zone : Zone} {id : InstanceId} {z' : Zones}
      (top : z.cards zone = z'.cards zone ++ [id]) (beside : SameBeside [zone] z z') :
      Granted z (.popTop zone) (.drawn id) z'
  | reorder {zone : Zone} {order : List InstanceId} {z' : Zones}
      (perm : order.Perm (z.cards zone)) (ordered : z'.cards zone = order)
      (beside : SameBeside [zone] z z') : Granted z (.reorder zone order) .done z'

variable {z z' left : Zones} {zone source destination : Zone} {id : InstanceId}
  {position : Position} {order : List InstanceId} {request : Request} {answer : Answer}

theorem Granted.ne_refused (h : z.Granted request answer z') : answer ≠ .refused := by
  cases h <;> simp

/-! ### All copies together -/

theorem sameBeside_setCards (z : Zones) (zone : Zone) (ids : List InstanceId) :
    SameBeside [zone] z (z.setCards zone ids) := by
  intro other h
  rw [List.mem_singleton] at h
  exact cards_setCards_of_ne z ids fun same => h same.symm

theorem SameBeside.eq_setCards (h : SameBeside [zone] z z') :
    z' = z.setCards zone (z'.cards zone) := by
  have deck := h .deck
  have hand := h .hand
  have battlefield := h .battlefield
  have graveyard := h .graveyard
  cases z
  cases z'
  cases zone <;> simp_all [setCards, cards]

/-- Whatever happens to one zone happens to the copies of the player. -/
theorem SameBeside.count (h : SameBeside [zone] z z') (a : InstanceId) :
    z'.allInstances.count a + (z.cards zone).count a
      = z.allInstances.count a + (z'.cards zone).count a := by
  rw [h.eq_setCards, cards_setCards_self]
  cases zone <;> simp only [count_allInstances, setCards, cards] <;> omega

/-- Putting a copy adds it to the zones, and nothing else. -/
theorem Put.perm (h : z.Put zone id position z') :
    z'.allInstances.Perm (id :: z.allInstances) := by
  rw [List.perm_iff_count]
  intro a
  have inserted : (z'.cards zone).Perm (id :: z.cards zone) := by
    rw [h.inserted]
    exact List.perm_insertIdx id _ (position.slot_le _)
  have total := h.beside.count a
  rw [inserted.count_eq, List.count_cons] at total
  rw [List.count_cons]
  omega

/-- Taking a copy removes it from the zones, and nothing else. -/
theorem Taken.perm (h : z.Taken zone id z') : z.allInstances.Perm (id :: z'.allInstances) := by
  rw [List.perm_iff_count]
  intro a
  obtain ⟨below, above, whole, rest⟩ := h.cut
  have total := h.beside.count a
  rw [whole, rest, List.perm_middle.count_eq, List.count_cons] at total
  rw [List.count_cons]
  omega

theorem perm_of_cards (beside : SameBeside [zone] z z') (h : (z'.cards zone).Perm (z.cards zone)) :
    z'.allInstances.Perm z.allInstances := by
  rw [List.perm_iff_count]
  intro a
  have total := beside.count a
  rw [h.count_eq] at total
  omega

/-- A request that is granted leaves every copy in one place. -/
theorem Granted.apart (apart : z.allInstances.Nodup) (due : z.Due request)
    (h : z.Granted request answer z') : z'.allInstances.Nodup := by
  cases h with
  | push put =>
    rw [put.perm.nodup_iff]
    exact List.nodup_cons.mpr ⟨due, apart⟩
  | remove taken => exact (taken.perm.nodup_iff.mp apart).of_cons
  | move taken put kept beside => exact kept.nodup_iff.mpr apart
  | popTop top beside =>
    have taken : z.Taken _ _ z' := ⟨⟨_, [], top, by simp⟩, beside⟩
    exact (taken.perm.nodup_iff.mp apart).of_cons
  | reorder perm ordered beside =>
    rw [(perm_of_cards beside (ordered ▸ perm)).nodup_iff]
    exact apart

/-! ### One request -/

theorem put_setCards (z : Zones) (zone : Zone) (id : InstanceId) (position : Position) :
    z.Put zone id position (z.setCards zone (position.place id (z.cards zone))) where
  inserted := by rw [cards_setCards_self, Position.place_eq_insertIdx]
  beside := sameBeside_setCards z zone _

theorem taken_setCards (h : id ∈ z.cards zone) :
    z.Taken zone id (z.setCards zone ((z.cards zone).erase id)) where
  cut := by
    obtain ⟨below, above, -, whole, rest⟩ := List.exists_erase_eq h
    exact ⟨below, above, whole, by rw [cards_setCards_self, rest]⟩
  beside := sameBeside_setCards z zone _

theorem push?_of_mem (position : Position) (h : id ∈ z.allInstances) :
    z.push? zone id position = none := by
  cases found : z.locate id with
  | none => exact absurd h (locate_eq_none_iff.mp found)
  | some other => simp only [push?, found]

theorem push?_of_not_mem (position : Position) (h : id ∉ z.allInstances) :
    z.push? zone id position = some (z.setCards zone (position.place id (z.cards zone))) := by
  simp only [push?, locate_eq_none_iff.mpr h]

/-- The copy a move has taken out is in no zone, so that the destination admits it. -/
theorem not_mem_of_taken (apart : z.allInstances.Nodup) (taken : z.Taken source id left) :
    id ∉ left.allInstances :=
  (List.nodup_cons.mp (taken.perm.nodup_iff.mp apart)).1

theorem granted_move (taken : z.Taken source id left)
    (put : left.Put destination id position z') :
    z.Granted (.move id source destination position) .done z' := by
  have kept : z'.allInstances.Perm z.allInstances := put.perm.trans taken.perm.symm
  refine .move taken put kept ?_
  intro zone h
  simp only [List.mem_cons, List.not_mem_nil, or_false, not_or] at h
  rw [put.beside zone (by simpa using h.2), taken.beside zone (by simpa using h.1)]

/-- A request that is not due is refused and changes nothing. -/
theorem serve_of_not_due (h : ¬z.Due request) : z.serve request = (.refused, z) := by
  cases request with
  | push zone id position =>
    have present : id ∈ z.allInstances := Classical.not_not.mp h
    simp only [serve, push?_of_mem position present]
  | remove zone id =>
    have absent : id ∉ z.cards zone := h
    simp only [serve, remove?, absent, if_false]
  | move id source destination position =>
    have absent : id ∉ z.cards source := h
    simp only [serve, move, remove?, absent, if_false]
  | popTop zone =>
    have empty : z.cards zone = [] := Classical.not_not.mp h
    simp only [serve, popTop?, empty, List.getLast?_nil]
  | reorder zone order =>
    have other : (z.cards zone).isPerm order = false := by
      rw [Bool.eq_false_iff, ne_eq, List.isPerm_iff]
      exact fun perm => h perm.symm
    simp only [serve, reorder?, other, Bool.false_eq_true, if_false]

/-- A request that is due is granted, if no copy occurs twice. -/
theorem serve_of_due (apart : z.allInstances.Nodup) (due : z.Due request) :
    z.Granted request (z.serve request).1 (z.serve request).2 := by
  cases request with
  | push zone id position =>
    simp only [serve, push?_of_not_mem position due]
    exact .push (put_setCards z zone id position)
  | remove zone id =>
    have present : id ∈ z.cards zone := due
    simp only [serve, remove?, present, if_true]
    exact .remove (taken_setCards present)
  | move id source destination position =>
    have present : id ∈ z.cards source := due
    have taken := taken_setCards present
    have fresh := not_mem_of_taken apart taken
    simp only [serve, move, remove?, present, if_true, push?_of_not_mem position fresh]
    exact granted_move taken (put_setCards _ destination id position)
  | popTop zone =>
    cases last : (z.cards zone).getLast? with
    | none => exact absurd (List.getLast?_eq_none_iff.mp last) due
    | some id =>
      simp only [serve, popTop?, last]
      refine .popTop ?_ (sameBeside_setCards z zone _)
      rw [cards_setCards_self, List.dropLast_append_getLast? id last]
  | reorder zone order =>
    have same : (z.cards zone).isPerm order = true := List.isPerm_iff.mpr (List.Perm.symm due)
    simp only [serve, reorder?, same, if_true]
    exact .reorder due (cards_setCards_self z zone order) (sameBeside_setCards z zone order)

/-- No request puts a copy in two places. -/
theorem serve_apart (apart : z.allInstances.Nodup) (request : Request) :
    (z.serve request).2.allInstances.Nodup := by
  by_cases due : z.Due request
  · exact (serve_of_due apart due).apart apart due
  · rw [serve_of_not_due due]
    exact apart

/-! ### Any requests -/

theorem after_append (requests : List Request) (request : Request) :
    after (requests ++ [request]) = ((after requests).serve request).2 := by
  rw [after, List.foldl_append]
  rfl

/-- After any requests, no copy is in two places. -/
theorem after_apart (requests : List Request) : (after requests).allInstances.Nodup := by
  induction requests using List.reverseRecOn with
  | nil => exact List.nodup_nil
  | append_singleton requests request ih =>
    rw [after_append]
    exact serve_apart ih request

/-- After any requests no copy occurs twice, and the next request is refused exactly if it is not
due. A refusal changes nothing, and a granted request does all it should and nothing else. -/
theorem requests_refused_or_granted (requests : List Request) (request : Request) :
    (after requests).allInstances.Nodup ∧
      (((after requests).serve request).1 = .refused ↔ ¬(after requests).Due request) ∧
      (((after requests).serve request).1 = .refused →
        ((after requests).serve request).2 = after requests) ∧
      (((after requests).serve request).1 ≠ .refused →
        (after requests).Granted request ((after requests).serve request).1
          ((after requests).serve request).2) := by
  have apart := after_apart requests
  refine ⟨apart, ?_⟩
  by_cases due : (after requests).Due request
  · have granted := serve_of_due apart due
    exact ⟨iff_of_false granted.ne_refused (fun h => h due),
      fun refused => absurd refused granted.ne_refused, fun _ => granted⟩
  · rw [serve_of_not_due due]
    exact ⟨iff_of_true rfl due, fun _ => rfl, fun ne => absurd rfl ne⟩

/-- Within one zone, the index is read when the copy is already out; and a copy in the deck is not
put into the hand as well. -/
theorem deck_rearranged :
    let z := after [.push .deck ⟨1⟩ .top, .push .deck ⟨2⟩ .top, .push .deck ⟨3⟩ .bottom]
    let z' := (z.serve (.move ⟨1⟩ .deck .deck (.index 2))).2
    z.deck = [⟨3⟩, ⟨1⟩, ⟨2⟩] ∧ z'.deck = [⟨3⟩, ⟨2⟩, ⟨1⟩] ∧
      z.Granted (.move ⟨1⟩ .deck .deck (.index 2)) .done z' ∧
      z.serve (.push .hand ⟨2⟩ .top) = (.refused, z) := by
  intro z z'
  obtain ⟨-, -, -, granted⟩ := requests_refused_or_granted
    [.push .deck ⟨1⟩ .top, .push .deck ⟨2⟩ .top, .push .deck ⟨3⟩ .bottom]
    (.move ⟨1⟩ .deck .deck (.index 2))
  obtain ⟨-, -, refused, -⟩ := requests_refused_or_granted
    [.push .deck ⟨1⟩ .top, .push .deck ⟨2⟩ .top, .push .deck ⟨3⟩ .bottom] (.push .hand ⟨2⟩ .top)
  refine ⟨by decide, by decide, granted (by decide), ?_⟩
  exact Prod.ext (by decide) (refused (by decide))

end Zones

end CardBattle
