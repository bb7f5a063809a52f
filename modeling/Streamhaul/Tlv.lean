import Streamhaul.Bytes

/-! Sequences of type-length-value items, each padded with zeros to a multiple of four
bytes. The walkers are generic in the item decoder and in the errors they raise; the
padding of the last item may be missing on input. -/
namespace Streamhaul.Tlv

/-- The big-endian 16-bit word at an offset; missing bytes count as zero. -/
def u16At (bytes : Bytes) (i : Nat) : UInt16 :=
  UInt16.ofNat (fromBeBytes [bytes.getD i 0,bytes.getD (i + 1) 0])

def paddedLen (n : Nat) : Nat := (n + 3) / 4 * 4

/-- One item. A length beyond 16 bits is written as the largest one. -/
def item (type : UInt16) (value : Bytes) : Bytes :=
  toBeBytes 2 type.toNat ++ toBeBytes 2 (min value.length u16Max) ++ value ++
    List.replicate ((4 - value.length % 4) % 4) 0

def encode (items : List (UInt16 × Bytes)) : Bytes := items.flatMap (fun i => item i.1 i.2)

section Walk

variable {ε α : Type} (visit : UInt16 → Bytes → Except ε α) (short : Nat → ε) (truncated : UInt16 → ε)

/-- Decodes item after item from `pos` on, where `rest` is what is left of the body. Every
round takes at least the four header bytes, so the length of `rest` is fuel enough. -/
def decodeLoop : Nat → Nat → Bytes → Except ε (List α)
  | 0, _, _ => .ok []
  | fuel + 1, pos, rest =>
    if rest = [] then .ok []
    else if rest.length < 4 then .error (short pos)
    else
      let type := u16At rest 0
      let len := (u16At rest 2).toNat
      if rest.length < 4 + len then .error (truncated type)
      else match visit type ((rest.drop 4).take len) with
        | .error e => .error e
        | .ok attr =>
          match decodeLoop fuel (pos + 4 + paddedLen len) (rest.drop (4 + paddedLen len)) with
          | .error e => .error e
          | .ok attrs => .ok (attr :: attrs)

def decodeFrom (pos : Nat) (rest : Bytes) : Except ε (List α) :=
  decodeLoop visit short truncated rest.length pos rest

variable (absent : ε) (target : UInt16)

/-- The position of the first item of the target type. -/
def findLoop : Nat → Nat → Bytes → Except ε Nat
  | 0, _, _ => .error absent
  | fuel + 1, pos, rest =>
    if rest.length < 4 then .error absent
    else
      let type := u16At rest 0
      let len := (u16At rest 2).toNat
      if rest.length < 4 + len then .error (truncated type)
      else if type = target then .ok pos
      else findLoop fuel (pos + 4 + paddedLen len) (rest.drop (4 + paddedLen len))

def findFrom (pos : Nat) (rest : Bytes) : Except ε Nat :=
  findLoop truncated absent target rest.length pos rest

end Walk

theorem le_paddedLen (n : Nat) : n ≤ paddedLen n := by unfold paddedLen; omega

theorem length_item (type : UInt16) (value : Bytes) :
    (item type value).length = 4 + paddedLen value.length := by
  simp only [item,List.length_append,length_toBeBytes,List.length_replicate,paddedLen]
  omega

theorem length_item_mod (type : UInt16) (value : Bytes) : (item type value).length % 4 = 0 := by
  rw [length_item,paddedLen]
  omega

theorem length_encode_mod (items : List (UInt16 × Bytes)) : (encode items).length % 4 = 0 := by
  induction items with
  | nil => rfl
  | cons i rest ih =>
    have first := length_item_mod i.1 i.2
    rw [encode,List.flatMap_cons,List.length_append]
    change ((item i.1 i.2).length + (encode rest).length) % 4 = 0
    omega

theorem length_value_le {items : List (UInt16 × Bytes)} {i : UInt16 × Bytes} (member : i ∈ items) :
    i.2.length ≤ (encode items).length := by
  induction items with
  | nil => cases member
  | cons first rest ih =>
    have split : encode (first :: rest) = item first.1 first.2 ++ encode rest := rfl
    rw [split,List.length_append,length_item]
    rcases List.mem_cons.mp member with rfl | later
    · have := le_paddedLen i.2.length
      omega
    · have := ih later
      omega

theorem u16At_append (front rest : Bytes) (i : Nat) :
    u16At (front ++ rest) (front.length + i) = u16At rest i := by
  have at' (j : Nat) : (front ++ rest)[front.length + j]? = rest[j]? := by
    rw [List.getElem?_append_right (by omega),Nat.add_sub_cancel_left]
  simp only [u16At,List.getD_eq_getElem?_getD,Nat.add_assoc,at']

theorem u16At_toBeBytes (n : Nat) (rest : Bytes) : u16At (toBeBytes 2 n ++ rest) 0 = UInt16.ofNat n := by
  have low : fromBeBytes (toBeBytes 2 n) = n % 65536 := fromBeBytes_toBeBytes 2 n
  have two : u16At (toBeBytes 2 n ++ rest) 0 = UInt16.ofNat (fromBeBytes (toBeBytes 2 n)) := by
    simp [u16At,toBeBytes]
  rw [two,low]
  apply UInt16.toNat_inj.mp
  simp

theorem u16At_item_type (type : UInt16) (value rest : Bytes) : u16At (item type value ++ rest) 0 = type := by
  rw [item,List.append_assoc,List.append_assoc,List.append_assoc,u16At_toBeBytes]
  exact UInt16.ofNat_toNat

theorem u16At_item_length (type : UInt16) (value rest : Bytes) (fits : value.length ≤ u16Max) :
    (u16At (item type value ++ rest) 2).toNat = value.length := by
  have skip := u16At_append (toBeBytes 2 type.toNat)
    (toBeBytes 2 (min value.length u16Max) ++ (value ++ List.replicate ((4 - value.length % 4) % 4) 0 ++ rest)) 0
  rw [length_toBeBytes] at skip
  rw [item,List.append_assoc,List.append_assoc,List.append_assoc,← List.append_assoc value,skip,u16At_toBeBytes,
    Nat.min_eq_left fits]
  simp only [UInt16.toNat_ofNat']
  apply Nat.mod_eq_of_lt
  unfold u16Max at fits
  omega

/-- The length field of an item stays inside it. -/
theorem item_whole (type : UInt16) (value rest : Bytes) (fits : value.length ≤ u16Max) :
    4 + (u16At (item type value ++ rest) 2).toNat ≤ (item type value ++ rest).length := by
  have padding := le_paddedLen value.length
  rw [u16At_item_length type value rest fits,List.length_append,length_item]
  omega

theorem item_value (type : UInt16) (value rest : Bytes) :
    ((item type value ++ rest).drop 4).take value.length = value := by
  have front : (toBeBytes 2 type.toNat ++ toBeBytes 2 (min value.length u16Max)).length = 4 := by simp
  rw [item,List.append_assoc,List.append_assoc,List.drop_append_of_le_length (by omega),
    List.drop_of_length_le (by omega),List.nil_append,List.take_left]

theorem item_rest (type : UInt16) (value rest : Bytes) :
    (item type value ++ rest).drop (4 + paddedLen value.length) = rest := by
  rw [← length_item type value,List.drop_left]

section Walk

variable {ε α : Type} {visit : UInt16 → Bytes → Except ε α} {short : Nat → ε} {truncated : UInt16 → ε}
  {attrs : List α} {pos : Nat} {rest : Bytes}

theorem decodeLoop_fuel {fuel fuel' pos : Nat} (enough : rest.length ≤ fuel) (enough' : rest.length ≤ fuel') :
    decodeLoop visit short truncated fuel pos rest = decodeLoop visit short truncated fuel' pos rest := by
  induction fuel generalizing fuel' pos rest with
  | zero =>
    have empty : rest = [] := by simpa using enough
    cases fuel' <;> simp [decodeLoop,empty]
  | succ fuel ih =>
    cases fuel' with
    | zero =>
      have empty : rest = [] := by simpa using enough'
      simp [decodeLoop,empty]
    | succ fuel' =>
      have shorter : (rest.drop (4 + paddedLen (u16At rest 2).toNat)).length ≤ min fuel fuel' := by
        rw [List.length_drop]
        omega
      simp only [decodeLoop]
      rw [ih (shorter.trans (Nat.min_le_left _ _)) (shorter.trans (Nat.min_le_right _ _))]

theorem decodeFrom_round (fits : 4 + (u16At rest 2).toNat ≤ rest.length) :
    decodeFrom visit short truncated pos rest =
      match visit (u16At rest 0) ((rest.drop 4).take (u16At rest 2).toNat) with
      | .error e => .error e
      | .ok attr =>
        match decodeFrom visit short truncated (pos + 4 + paddedLen (u16At rest 2).toNat)
            (rest.drop (4 + paddedLen (u16At rest 2).toNat)) with
        | .error e => .error e
        | .ok attrs => .ok (attr :: attrs) := by
  obtain ⟨fuel,size⟩ : ∃ fuel, rest.length = fuel + 1 := ⟨rest.length - 1,by omega⟩
  have nonempty : rest ≠ [] := by
    intro empty
    rw [empty,List.length_nil] at size
    omega
  have shorter : (rest.drop (4 + paddedLen (u16At rest 2).toNat)).length ≤ fuel := by
    rw [List.length_drop]
    omega
  rw [decodeFrom,size,decodeLoop,if_neg nonempty,if_neg (by omega)]
  simp only
  rw [if_neg (by omega),decodeFrom,decodeLoop_fuel shorter le_rfl]

theorem decodeFrom_item {type : UInt16} {value rest : Bytes} (fits : value.length ≤ u16Max) :
    decodeFrom visit short truncated pos (item type value ++ rest) =
      match visit type value with
      | .error e => .error e
      | .ok attr =>
        match decodeFrom visit short truncated (pos + (item type value).length) rest with
        | .error e => .error e
        | .ok attrs => .ok (attr :: attrs) := by
  rw [decodeFrom_round (item_whole type value rest fits)]
  simp only [u16At_item_type,u16At_item_length type value rest fits,item_value,item_rest,length_item,Nat.add_assoc]

theorem decodeFrom_encode {items : List (UInt16 × Bytes)} (fits : ∀ i ∈ items, i.2.length ≤ u16Max)
    (decoded : List.Forall₂ (fun i attr => visit i.1 i.2 = .ok attr) items attrs) :
    decodeFrom visit short truncated pos (encode items) = .ok attrs := by
  induction decoded generalizing pos with
  | nil => rfl
  | @cons i attr items attrs first _ ih =>
    have split : encode (i :: items) = item i.1 i.2 ++ encode items := rfl
    rw [split,decodeFrom_item (fits i List.mem_cons_self),first]
    simp only
    rw [ih (fun j member => fits j (List.mem_cons_of_mem _ member))]

variable {absent : ε} {target : UInt16}

theorem findLoop_fuel {fuel fuel' pos : Nat} (enough : rest.length ≤ fuel) (enough' : rest.length ≤ fuel') :
    findLoop truncated absent target fuel pos rest = findLoop truncated absent target fuel' pos rest := by
  induction fuel generalizing fuel' pos rest with
  | zero =>
    have empty : rest = [] := by simpa using enough
    cases fuel' <;> simp [findLoop,empty]
  | succ fuel ih =>
    cases fuel' with
    | zero =>
      have empty : rest = [] := by simpa using enough'
      simp [findLoop,empty]
    | succ fuel' =>
      simp only [findLoop]
      by_cases header : rest.length < 4
      · simp only [header,if_true]
      · have shorter : (rest.drop (4 + paddedLen (u16At rest 2).toNat)).length ≤ min fuel fuel' := by
          rw [List.length_drop]
          omega
        rw [ih (shorter.trans (Nat.min_le_left _ _)) (shorter.trans (Nat.min_le_right _ _))]

theorem findFrom_round (fits : 4 + (u16At rest 2).toNat ≤ rest.length) :
    findFrom truncated absent target pos rest =
      if u16At rest 0 = target then .ok pos
      else findFrom truncated absent target (pos + 4 + paddedLen (u16At rest 2).toNat)
        (rest.drop (4 + paddedLen (u16At rest 2).toNat)) := by
  obtain ⟨fuel,size⟩ : ∃ fuel, rest.length = fuel + 1 := ⟨rest.length - 1,by omega⟩
  have shorter : (rest.drop (4 + paddedLen (u16At rest 2).toNat)).length ≤ fuel := by
    rw [List.length_drop]
    omega
  rw [findFrom,size,findLoop,if_neg (by omega)]
  simp only
  rw [if_neg (by omega),findFrom,findLoop_fuel shorter le_rfl]

theorem findFrom_item {type : UInt16} {value rest : Bytes} (fits : value.length ≤ u16Max) :
    findFrom truncated absent target pos (item type value ++ rest) =
      if type = target then .ok pos
      else findFrom truncated absent target (pos + (item type value).length) rest := by
  rw [findFrom_round (item_whole type value rest fits)]
  simp only [u16At_item_type,u16At_item_length type value rest fits,item_rest,length_item,Nat.add_assoc]

theorem findFrom_encode {items : List (UInt16 × Bytes)} {value rest : Bytes}
    (fits : ∀ i ∈ items, i.2.length ≤ u16Max) (other : ∀ i ∈ items, i.1 ≠ target)
    (last : value.length ≤ u16Max) :
    findFrom truncated absent target pos (encode items ++ (item target value ++ rest)) =
      .ok (pos + (encode items).length) := by
  induction items generalizing pos with
  | nil => exact (findFrom_item last).trans (if_pos rfl)
  | cons i items ih =>
    have split : encode (i :: items) = item i.1 i.2 ++ encode items := rfl
    rw [split,List.append_assoc,findFrom_item (fits i List.mem_cons_self),
      if_neg (other i List.mem_cons_self),ih (fun j member => fits j (List.mem_cons_of_mem _ member))
        (fun j member => other j (List.mem_cons_of_mem _ member)),List.length_append,Nat.add_assoc]

/-- A body read as items, whatever the errors of a failing reader would be. -/
inductive Reads (visit : UInt16 → Bytes → Except ε α) : Bytes → List α → Prop
  | nil : Reads visit [] []
  | item {rest : Bytes} {attr : α} {attrs : List α} (fits : 4 + (u16At rest 2).toNat ≤ rest.length)
      (visited : visit (u16At rest 0) ((rest.drop 4).take (u16At rest 2).toNat) = .ok attr)
      (later : Reads visit (rest.drop (4 + paddedLen (u16At rest 2).toNat)) attrs) : Reads visit rest (attr :: attrs)

theorem decodeFrom_of_reads (reads : Reads visit rest attrs) (pos : Nat) :
    decodeFrom visit short truncated pos rest = .ok attrs := by
  induction reads generalizing pos with
  | nil => rfl
  | item fits visited _ ih =>
    rw [decodeFrom_round fits,visited]
    simp only
    rw [ih]

theorem reads_of_decodeLoop {fuel pos : Nat} (enough : rest.length ≤ fuel)
    (decoded : decodeLoop visit short truncated fuel pos rest = .ok attrs) : Reads visit rest attrs := by
  induction fuel generalizing pos rest attrs with
  | zero =>
    cases List.eq_nil_of_length_eq_zero (Nat.le_zero.mp enough)
    cases decoded
    exact .nil
  | succ fuel ih =>
    simp only [decodeLoop] at decoded
    split at decoded
    · next empty =>
      cases decoded
      rw [empty]
      exact .nil
    · split at decoded
      · cases decoded
      · split at decoded
        · cases decoded
        · next long whole =>
          split at decoded
          · cases decoded
          · next attr visited =>
            split at decoded
            · cases decoded
            · next attrs' later =>
              cases decoded
              apply Reads.item (Nat.not_lt.mp whole) visited
              apply ih _ later
              rw [List.length_drop]
              omega

theorem decodeFrom_ok_iff :
    decodeFrom visit short truncated pos rest = .ok attrs ↔ Reads visit rest attrs :=
  ⟨reads_of_decodeLoop le_rfl,fun reads => decodeFrom_of_reads reads pos⟩

/-- The first item of the target type in a body that reads as `attrs`: it stands behind whole
items of other types, and what follows it is read on its own. -/
structure First (visit : UInt16 → Bytes → Except ε α) (target : UInt16) (attrs : List α) (before after : Bytes)
    (pre : List α) (attr : α) (post : List α) : Prop where
  split : attrs = pre ++ attr :: post
  aligned : before.length % 4 = 0
  earlier : Reads visit before pre
  others : ∀ a ∈ pre, ∃ type value, type ≠ target ∧ visit type value = .ok a
  type : u16At after 0 = target
  fits : 4 + (u16At after 2).toNat ≤ after.length
  visited : visit target ((after.drop 4).take (u16At after 2).toNat) = .ok attr
  later : Reads visit (after.drop (4 + paddedLen (u16At after 2).toNat)) post

theorem u16At_take_append {rest before : Bytes} {n i : Nat} (inside : i + 2 ≤ n) (whole : n ≤ rest.length) :
    u16At (rest.take n ++ before) i = u16At rest i := by
  have at' (j : Nat) (bound : j < n) : (rest.take n ++ before)[j]? = rest[j]? := by
    rw [List.getElem?_append_left (by rw [List.length_take]; omega),List.getElem?_take_of_lt bound]
  simp only [u16At,List.getD_eq_getElem?_getD,at' i (by omega),at' (i + 1) (by omega)]

theorem reads_take {rest before : Bytes} {attr : α} (whole : 4 + paddedLen (u16At rest 2).toNat ≤ rest.length)
    (visited : visit (u16At rest 0) ((rest.drop 4).take (u16At rest 2).toNat) = .ok attr)
    (later : Reads visit before attrs) :
    Reads visit (rest.take (4 + paddedLen (u16At rest 2).toNat) ++ before) (attr :: attrs) := by
  have padding := le_paddedLen (u16At rest 2).toNat
  have front : (rest.take (4 + paddedLen (u16At rest 2).toNat)).length = 4 + paddedLen (u16At rest 2).toNat := by
    rw [List.length_take,Nat.min_eq_left whole]
  have type : u16At (rest.take (4 + paddedLen (u16At rest 2).toNat) ++ before) 0 = u16At rest 0 :=
    u16At_take_append (by omega) whole
  have length : u16At (rest.take (4 + paddedLen (u16At rest 2).toNat) ++ before) 2 = u16At rest 2 :=
    u16At_take_append (by omega) whole
  apply Reads.item
  · rw [length,List.length_append,front]
    omega
  · rw [type,length,List.drop_append_of_le_length (by omega),List.drop_take,Nat.add_sub_cancel_left,
      List.take_append_of_le_length (by rw [List.length_take,List.length_drop]; omega),List.take_take,
      Nat.min_eq_left padding]
    exact visited
  · rw [length,List.drop_left' front]
    exact later

theorem reads_first {pos p : Nat} (reads : Reads visit rest attrs)
    (found : findFrom truncated absent target pos rest = .ok p) :
    ∃ before after pre attr post, rest = before ++ after ∧ p = pos + before.length ∧
      First visit target attrs before after pre attr post := by
  induction reads generalizing pos with
  | nil => cases found
  | @item rest attr attrs fits visited later ih =>
    rw [findFrom_round fits] at found
    by_cases here : u16At rest 0 = target
    · rw [if_pos here] at found
      cases found
      rw [here] at visited
      exact ⟨[],rest,[],attr,attrs,rfl,rfl,rfl,rfl,.nil,by simp,here,fits,visited,later⟩
    · rw [if_neg here] at found
      obtain ⟨before,after,pre,attr',post,split,position,first⟩ := ih found
      have size : 4 ≤ after.length := (Nat.le_add_right _ _).trans first.fits
      have whole : 4 + paddedLen (u16At rest 2).toNat ≤ rest.length := by
        have total := congrArg List.length split
        rw [List.length_drop,List.length_append] at total
        omega
      refine ⟨rest.take (4 + paddedLen (u16At rest 2).toNat) ++ before,after,attr :: pre,attr',post,?_,?_,?_⟩
      · rw [List.append_assoc,← split,List.take_append_drop]
      · rw [position,List.length_append,List.length_take,Nat.min_eq_left whole]
        omega
      · refine ⟨by rw [first.split]; rfl,?_,reads_take whole visited first.earlier,?_,first.type,first.fits,
          first.visited,first.later⟩
        · have multiple : paddedLen (u16At rest 2).toNat % 4 = 0 := Nat.mul_mod_left _ _
          have aligned := first.aligned
          rw [List.length_append,List.length_take,Nat.min_eq_left whole]
          omega
        · intro a member
          rcases List.mem_cons.mp member with rfl | earlier
          · exact ⟨_,_,here,visited⟩
          · exact first.others a earlier

end Walk

end Streamhaul.Tlv
