import Mathlib.Data.List.Sort
import Mathlib.Data.List.Infix
import Mathlib.Logic.Equiv.Basic

/-! # Pages cut by a cursor

A list of rows is read page by page. Every query answers the rows in the order of a key, and rows of one key in any
order, another one at every query. A page ends with the cursor that the next one starts behind. What is read is the
list of rows, whatever the orders are, exactly if no page ends at a row that shares its key
(`walk_arranges`, `clearCuts_of_length`). -/

namespace Pages

variable {α I K : Type} [LinearOrder K]

/-- The rows in descending order of their keys. -/
structure Arranges (key : α → K) (rows order : List α) : Prop where
  perm : order.Perm rows
  sorted : order.Pairwise fun x y => key y ≤ key x

variable [DecidableEq I] (ident : α → I) (size : Nat)

/-- The rows behind a cursor. -/
def behind (cursor : Option I) (order : List α) : List α :=
  match cursor with
  | none => order
  | some c => (order.dropWhile fun x => ident x ≠ c).drop 1

/-- The cursor that a page ends with, if it is not the last one. -/
def nextCursor (rest : List α) : Option I :=
  if size < rest.length then (rest.take size).getLast?.map ident else none

/-- The rows of all pages, from the page of a query on, if the last one is reached. -/
def walk (orders : Nat → List α) : Nat → Nat → Option I → Option (List α)
  | 0, _, _ => none
  | fuel + 1, query, cursor =>
    match nextCursor ident size (behind ident cursor (orders query)) with
    | none => some ((behind ident cursor (orders query)).take size)
    | some next => (walk orders fuel (query + 1) (some next)).map
        ((behind ident cursor (orders query)).take size ++ ·)

/-- The keys in descending order. -/
def keys (key : α → K) (rows : List α) : List K := (rows.map key).insertionSort fun s t => t ≤ s

/-- No page but the last ends at a key that two rows share. -/
def ClearCuts (key : α → K) (rows : List α) : Prop :=
  ∀ k t, (k + 1) * size < rows.length → (keys key rows)[(k + 1) * size - 1]? = some t → (keys key rows).count t = 1

variable {ident size} {key : α → K} {rows order order' : List α} {orders : Nat → List α} {c x : α} {p q : Nat}
  {cursor : Option I} {fuel query : Nat} {items : List α}

/-! ## Arrangements -/

theorem Arranges.map_key (h : Arranges key rows order) : order.map key = keys key rows := by
  have hsorted : (order.map key).Pairwise fun s t => t ≤ s := List.pairwise_map.mpr h.sorted
  exact ((h.perm.map key).trans (List.perm_insertionSort _ _).symm).eq_of_pairwise
    (fun s t _ _ hst hts => le_antisymm hts hst) hsorted (List.pairwise_insertionSort _ _)

theorem exists_arranges (key : α → K) (rows : List α) : ∃ order, Arranges key rows order := by
  have : Std.Total fun x y : α => key y ≤ key x := ⟨fun x y => le_total (key y) (key x)⟩
  have : IsTrans α fun x y => key y ≤ key x := ⟨fun x y z hxy hyz => hyz.trans hxy⟩
  exact ⟨rows.insertionSort fun x y => key y ≤ key x, List.perm_insertionSort _ _, List.pairwise_insertionSort _ _⟩

theorem eq_take_append (hc : order[q]? = some c) : order = order.take q ++ c :: order.drop (q + 1) := by
  obtain ⟨hq, rfl⟩ := List.getElem?_eq_some_iff.mp hc
  rw [← List.drop_eq_getElem_cons hq, List.take_append_drop]

/-- The row is the only one of its key. -/
def Alone (key : α → K) (rows : List α) (c : α) : Prop := ∀ x ∈ rows, key x = key c → x = c

/-- A row that is alone divides every arrangement at one place. -/
theorem Arranges.filter_eq (h : Arranges key rows order) (hnodup : rows.Nodup) (halone : Alone key rows c)
    (hc : order[q]? = some c) :
    order.filter (fun x => key c < key x) = order.take q ∧ order.filter (fun x => key x < key c) = order.drop (q + 1) := by
  have hsplit := eq_take_append hc
  have hsorted := h.sorted
  have hdistinct : order.Nodup := h.perm.nodup_iff.mpr hnodup
  rw [hsplit, List.pairwise_append, List.pairwise_cons] at hsorted
  obtain ⟨-, ⟨hbelow, -⟩, habove⟩ := hsorted
  rw [hsplit, List.nodup_append, List.nodup_cons] at hdistinct
  obtain ⟨-, ⟨hnotBelow, -⟩, hapart⟩ := hdistinct
  have hrows : ∀ x ∈ order, x ≠ c → key x ≠ key c := fun x hx hne heq => hne (halone x (h.perm.mem_iff.mp hx) heq)
  have hbefore : ∀ x ∈ order.take q, key c < key x := fun x hx =>
    lt_of_le_of_ne (habove x hx c List.mem_cons_self)
      (hrows x (List.mem_of_mem_take hx) (hapart x hx c List.mem_cons_self)).symm
  have hafter : ∀ x ∈ order.drop (q + 1), key x < key c := fun x hx =>
    lt_of_le_of_ne (hbelow x hx) (hrows x (List.mem_of_mem_drop hx) fun heq => hnotBelow (heq ▸ hx))
  constructor
  · conv_lhs => rw [hsplit]
    rw [List.filter_append, List.filter_eq_self.mpr (by simpa using hbefore),
      List.filter_cons_of_neg (by simp), List.filter_eq_nil_iff.mpr, List.append_nil]
    exact fun x hx => by simpa using (hafter x hx).le
  · conv_lhs => rw [hsplit]
    rw [List.filter_append, List.filter_eq_nil_iff.mpr, List.nil_append, List.filter_cons_of_neg (by simp),
      List.filter_eq_self.mpr (by simpa using hafter)]
    exact fun x hx => by simpa using (hbefore x hx).le

/-- **Behind a row that is alone** every arrangement has the same rows. -/
theorem Arranges.drop_perm (h : Arranges key rows order) (h' : Arranges key rows order') (hnodup : rows.Nodup)
    (halone : Alone key rows c) (hc : order[q]? = some c) :
    order'[q]? = some c ∧ (order'.drop (q + 1)).Perm (order.drop (q + 1)) := by
  have hsame := h'.perm.trans h.perm.symm
  obtain ⟨q', hc'⟩ := List.mem_iff_getElem?.mp (hsame.mem_iff.mpr (List.mem_of_getElem? hc))
  obtain ⟨habove, hbelow⟩ := h.filter_eq hnodup halone hc
  obtain ⟨habove', hbelow'⟩ := h'.filter_eq hnodup halone hc'
  have hq : q' = q := by
    have hlength := (hsame.filter fun x => key c < key x).length_eq
    have hlt := (List.getElem?_eq_some_iff.mp hc).1
    have hlt' := (List.getElem?_eq_some_iff.mp hc').1
    rw [habove, habove', List.length_take, List.length_take] at hlength
    omega
  subst hq
  refine ⟨hc', ?_⟩
  rw [← hbelow, ← hbelow']
  exact hsame.filter _

/-- A key that occurs once is of a row that is alone. -/
theorem Arranges.alone_iff (h : Arranges key rows order) (hnodup : rows.Nodup) (hc : order[q]? = some c) :
    (keys key rows).count (key c) = 1 ↔ Alone key rows c := by
  have hsplit := eq_take_append hc
  have hdistinct : order.Nodup := h.perm.nodup_iff.mpr hnodup
  rw [hsplit, List.nodup_append, List.nodup_cons] at hdistinct
  obtain ⟨-, ⟨hnotBelow, -⟩, hapart⟩ := hdistinct
  have hcount : (keys key rows).count (key c) =
      ((order.take q).map key).count (key c) + (((order.drop (q + 1)).map key).count (key c) + 1) := by
    conv_lhs => rw [← h.map_key, hsplit]
    rw [List.map_append, List.map_cons, List.count_append, List.count_cons_self]
  have hnone : (keys key rows).count (key c) = 1 ↔
      key c ∉ (order.take q).map key ∧ key c ∉ (order.drop (q + 1)).map key := by
    rw [hcount, ← List.count_eq_zero, ← List.count_eq_zero]
    omega
  rw [hnone]
  constructor
  · rintro ⟨habove, hbelow⟩ x hx heq
    rw [← h.perm.mem_iff, hsplit, List.mem_append, List.mem_cons] at hx
    rcases hx with hx | rfl | hx
    · exact absurd (heq ▸ List.mem_map_of_mem hx) habove
    · rfl
    · exact absurd (heq ▸ List.mem_map_of_mem hx) hbelow
  · intro halone
    constructor
    · intro hmem
      obtain ⟨x, hx, heq⟩ := List.mem_map.mp hmem
      exact hapart x hx c List.mem_cons_self (halone x (h.perm.mem_iff.mp (List.mem_of_mem_take hx)) heq)
    · intro hmem
      obtain ⟨x, hx, heq⟩ := List.mem_map.mp hmem
      exact hnotBelow (halone x (h.perm.mem_iff.mp (List.mem_of_mem_drop hx)) heq ▸ hx)

/-! ## Cursors -/

theorem mem_of_mem_behind (h : x ∈ behind ident cursor order) : x ∈ order := by
  unfold behind at h
  split at h
  · exact h
  · exact (List.dropWhile_sublist _).subset (List.mem_of_mem_drop h)

/-- Behind the row of a place come the rows after it. -/
theorem behind_ident (hident : (order.map ident).Nodup) (hc : order[q]? = some c) :
    behind ident (some (ident c)) order = order.drop (q + 1) := by
  have hsplit := eq_take_append hc
  have hne : ∀ x ∈ order.take q, ident x ≠ ident c := by
    rw [hsplit, List.map_append, List.map_cons, List.nodup_append] at hident
    exact fun x hx => hident.2.2 _ (List.mem_map_of_mem hx) _ List.mem_cons_self
  rw [behind]
  conv_lhs => rw [hsplit]
  rw [List.dropWhile_append_of_pos (by simpa using hne), List.dropWhile_cons_of_neg (by simp), List.drop_one,
    List.tail_cons]

/-- **One page.** If the rows behind the cursor are those from a place on, the page is the next ones of them, and
the walk goes on from the place after it unless they were the last ones. -/
theorem walk_succ (hsize : 0 < size)
    (hbehind : behind ident cursor (orders query) = (orders query).drop p) :
    walk ident size orders (fuel + 1) query cursor =
      if (orders query).length ≤ p + size then some ((orders query).drop p)
      else (((orders query)[p + size - 1]?).bind fun c => walk ident size orders fuel (query + 1) (some (ident c))).map
        (((orders query).drop p).take size ++ ·) := by
  rw [walk, hbehind, nextCursor, List.length_drop]
  by_cases hlast : (orders query).length ≤ p + size
  · have hrest : ((orders query).drop p).length ≤ size := by
      rw [List.length_drop]
      omega
    rw [if_pos hlast, if_neg (by omega), List.take_of_length_le hrest]
  · have hmore : size < (orders query).length - p := by omega
    have hcut : (((orders query).drop p).take size).getLast? = (orders query)[p + size - 1]? := by
      rw [List.getLast?_eq_getElem?, List.length_take, List.length_drop, Nat.min_eq_left hmore.le,
        List.getElem?_take_of_lt (by omega), List.getElem?_drop, Nat.add_sub_assoc hsize]
    have hthere : p + size - 1 < (orders query).length := by omega
    rw [if_neg hlast, if_pos hmore, hcut, List.getElem?_eq_getElem hthere]
    rfl

/-! ## Reading everything -/

/-- **From one clear cut to the next.** Behind a place where every arrangement has the same rows, the walk reads
these rows, in an order of their keys. -/
theorem walk_of_clear (hrows : (rows.map ident).Nodup) (hsize : 0 < size) (horders : ∀ k, Arranges key rows (orders k))
    (hclear : ClearCuts size key rows) (m k query : Nat) (cursor : Option I) (hm : rows.length ≤ k * size + m)
    (hbehind : ∀ order, Arranges key rows order → behind ident cursor order = order.drop (k * size))
    (hsame : ∀ order order', Arranges key rows order → Arranges key rows order' →
      (order'.drop (k * size)).Perm (order.drop (k * size))) :
    ∃ fuel items, walk ident size orders fuel query cursor = some items ∧
      (∀ order, Arranges key rows order → items.Perm (order.drop (k * size))) ∧
      items.Pairwise fun x y => key y ≤ key x := by
  induction m using Nat.strong_induction_on generalizing k query cursor with
  | _ m ih =>
    have hlength : (orders query).length = rows.length := (horders query).perm.length_eq
    by_cases hlast : rows.length ≤ k * size + size
    · refine ⟨1, (orders query).drop (k * size), ?_, fun order horder => hsame order _ horder (horders query),
        (horders query).sorted.sublist (List.drop_sublist _ _)⟩
      rw [walk_succ hsize (hbehind _ (horders query)), if_pos (by omega)]
    · -- The page ends at a row that is alone, so behind it every arrangement has the same rows again.
      have hnext : (k + 1) * size = k * size + size := Nat.succ_mul k size
      have hthere : k * size + size - 1 < (orders query).length := by omega
      obtain ⟨c, hc⟩ : ∃ c, (orders query)[k * size + size - 1]? = some c := ⟨_, List.getElem?_eq_getElem hthere⟩
      have hnodup : rows.Nodup := hrows.of_map
      have halone : Alone key rows c := by
        refine ((horders query).alone_iff hnodup hc).mp (hclear k (key c) (by omega) ?_)
        rw [hnext, ← (horders query).map_key, List.getElem?_map, hc]
        rfl
      have hplace : k * size + size - 1 + 1 = (k + 1) * size := by omega
      have hsame' : ∀ order, Arranges key rows order → order[k * size + size - 1]? = some c ∧
          (order.drop ((k + 1) * size)).Perm ((orders query).drop ((k + 1) * size)) := by
        intro order horder
        have hperm := (horders query).drop_perm horder hnodup halone hc
        rwa [hplace] at hperm
      obtain ⟨fuel, items, hwalk, hperm, hsorted⟩ := ih (m - size) (by omega) (k + 1) (query + 1) (some (ident c))
        (by omega) (fun order horder => by
          have hident : (order.map ident).Nodup := (horder.perm.map ident).nodup_iff.mpr hrows
          rw [behind_ident hident (hsame' order horder).1, hplace])
        fun order order' horder horder' => (hsame' order' horder').2.trans (hsame' order horder).2.symm
      have hall : ((orders query).drop (k * size)).take size ++ (orders query).drop ((k + 1) * size) =
          (orders query).drop (k * size) := by
        rw [hnext, ← List.drop_drop, List.take_append_drop]
      refine ⟨fuel + 1, ((orders query).drop (k * size)).take size ++ items, ?_, fun order horder => ?_, ?_⟩
      · rw [walk_succ hsize (hbehind _ (horders query)), if_neg (by omega), hc]
        show Option.map _ (walk ident size orders fuel (query + 1) (some (ident c))) = _
        rw [hwalk]
        rfl
      · refine ((hperm _ (horders query)).append_left _).trans ?_
        rw [hall]
        exact hsame order _ horder (horders query)
      · have hrest := (horders query).sorted.sublist (List.drop_sublist (k * size) _)
        rw [← hall, List.pairwise_append] at hrest
        exact List.pairwise_append.mpr ⟨hrest.1, hsorted, fun x hx y hy =>
          hrest.2.2 x hx y ((hperm _ (horders query)).mem_iff.mp hy)⟩

/-! ## Losing rows -/

/-- A walk that finds the rows in one order from now on reads what is behind its cursor. -/
theorem walk_same (hident : (order.map ident).Nodup) (hsize : 0 < size) (hsame : ∀ k, query ≤ k → orders k = order)
    (hbehind : behind ident cursor order = order.drop p)
    (hwalk : walk ident size orders fuel query cursor = some items) : items = order.drop p := by
  induction fuel generalizing query cursor p items with
  | zero => cases hwalk
  | succ fuel ih =>
    have hquery := hsame query (le_refl _)
    rw [walk_succ hsize (hquery.symm ▸ hbehind), hquery] at hwalk
    split at hwalk
    · exact (Option.some.inj hwalk).symm
    · rename_i hlast
      obtain ⟨later, hlater, rfl⟩ := Option.map_eq_some_iff.mp hwalk
      obtain ⟨c, hc, hlater⟩ := Option.bind_eq_some_iff.mp hlater
      have hplace : p + size - 1 + 1 = p + size := by omega
      rw [ih (fun k hk => hsame k (by omega)) (behind_ident hident hc) hlater, hplace, ← List.drop_drop,
        List.take_append_drop]

/-- A walk that finds the rows in one order up to a query, and in another one from then on. -/
theorem length_walk_of_change {last q' : Nat} (hident : (order.map ident).Nodup) (hident' : (order'.map ident).Nodup)
    (hsize : 0 < size) (hfirst : ∀ k, k ≤ last → orders k = order) (hthen : ∀ k, last < k → orders k = order')
    (hmore : (last + 1) * size < order.length) (hc : order[(last + 1) * size - 1]? = some c)
    (hc' : order'[q']? = some c) (hquery : query ≤ last)
    (hbehind : behind ident cursor order = order.drop (query * size))
    (hwalk : walk ident size orders fuel query cursor = some items) :
    items.length + query * size = (last + 1) * size + (order'.length - (q' + 1)) := by
  induction fuel generalizing query cursor items with
  | zero => cases hwalk
  | succ fuel ih =>
    have hnow := hfirst query hquery
    have hnext : (query + 1) * size = query * size + size := Nat.succ_mul query size
    have hle : (query + 1) * size ≤ (last + 1) * size := Nat.mul_le_mul_right size (by omega)
    rw [walk_succ hsize (hnow.symm ▸ hbehind), hnow, if_neg (by omega)] at hwalk
    obtain ⟨later, hlater, rfl⟩ := Option.map_eq_some_iff.mp hwalk
    obtain ⟨d, hd, hlater⟩ := Option.bind_eq_some_iff.mp hlater
    have hpage : ((order.drop (query * size)).take size).length = size := by
      rw [List.length_take, List.length_drop]
      omega
    rw [List.length_append, hpage]
    rcases Nat.lt_or_ge query last with hearlier | hchange
    · have hplace : query * size + size - 1 + 1 = (query + 1) * size := by omega
      have hnotLast : query + 1 ≤ last := hearlier
      have hlength := ih hnotLast (hplace ▸ behind_ident hident hd) hlater
      omega
    · -- the next query finds the other order
      obtain rfl : query = last := by omega
      rw [hnext] at hc
      obtain rfl := Option.some.inj (hd.symm.trans hc)
      have hrest := walk_same hident' hsize (fun k hk => hthen k hk) (behind_ident hident' hc') hlater
      rw [hrest, List.length_drop, hnext]
      omega

/-- Two rows of one key may change their places. -/
theorem Arranges.swap [DecidableEq α] (h : Arranges key rows order) (hnodup : rows.Nodup) {y : α} (hc : c ∈ rows)
    (hy : y ∈ rows) (hkey : key y = key c) : Arranges key rows (order.map (Equiv.swap c y)) := by
  have hsame : ∀ x, key (Equiv.swap c y x) = key x := by
    intro x
    rw [Equiv.swap_apply_def]
    split
    · rename_i hx
      rw [hx, hkey]
    · split
      · rename_i hx
        rw [hx, hkey]
      · rfl
  have hmem : ∀ x, x ∈ order.map (Equiv.swap c y) ↔ x ∈ rows := by
    intro x
    have hback : x ∈ order.map (Equiv.swap c y) ↔ Equiv.swap c y x ∈ order := by
      rw [List.mem_map]
      constructor
      · rintro ⟨z, hz, heq⟩
        rwa [← Equiv.swap_apply_eq_iff.mp heq]
      · exact fun hx => ⟨_, hx, Equiv.swap_apply_eq_iff.mpr rfl⟩
    rw [hback, h.perm.mem_iff, Equiv.swap_apply_def]
    split
    · rename_i hx
      exact iff_of_true hy (hx ▸ hc)
    · split
      · rename_i hx
        exact iff_of_true hc (hx ▸ hy)
      · rfl
  refine ⟨?_, List.pairwise_map.mpr (h.sorted.imp fun {x x'} hle => ?_)⟩
  · exact (List.perm_ext_iff_of_nodup (((h.perm.nodup_iff.mpr hnodup).map (Equiv.injective _))) hnodup).mpr hmem
  · rwa [hsame, hsame]

/-- **Losing rows.** If every walk reads as many rows as there are, then no page but the last ends at a key that two
rows share. -/
theorem clearCuts_of_length (hrows : (rows.map ident).Nodup) (hsize : 0 < size)
    (h : ∀ orders, (∀ k, Arranges key rows (orders k)) →
      ∃ fuel items, walk ident size orders fuel 0 none = some items ∧ items.length = rows.length) :
    ClearCuts size key rows := by
  classical
  intro last t hmore ht
  have hnodup : rows.Nodup := hrows.of_map
  obtain ⟨order, horder⟩ := exists_arranges key rows
  have hlength := horder.perm.length_eq
  have hthere : (last + 1) * size - 1 < order.length := by omega
  obtain ⟨c, hc⟩ : ∃ c, order[(last + 1) * size - 1]? = some c := ⟨_, List.getElem?_eq_getElem hthere⟩
  obtain rfl : key c = t := by
    rw [← horder.map_key, List.getElem?_map, hc] at ht
    exact Option.some.inj ht
  refine (horder.alone_iff hnodup hc).mpr fun y hy hkey => ?_
  by_contra hne
  -- From the next query on the two rows have changed their places.
  have hcrows : c ∈ rows := horder.perm.mem_iff.mp (List.mem_of_getElem? hc)
  have hswap := horder.swap hnodup hcrows hy hkey
  obtain ⟨q', hq'⟩ := List.mem_iff_getElem?.mp (horder.perm.mem_iff.mpr hy)
  have hc' : (order.map (Equiv.swap c y))[q']? = some c := by
    rw [List.getElem?_map, hq', Option.map_some, Equiv.swap_apply_right]
  obtain ⟨fuel, items, hwalk, hall⟩ := h (fun k => if k ≤ last then order else order.map (Equiv.swap c y)) fun k => by
    split
    · exact horder
    · exact hswap
  have hident : ∀ order, Arranges key rows order → (order.map ident).Nodup := fun order horder =>
    (horder.perm.map ident).nodup_iff.mpr hrows
  have hread := length_walk_of_change (hident _ horder) (hident _ hswap) hsize
    (fun k hk => if_pos hk) (fun k hk => if_neg (by omega)) (by omega) hc hc' (Nat.zero_le last)
    (by rw [Nat.zero_mul]; rfl) hwalk
  -- As many rows are read as there are, so the row has not changed its place.
  have hplace : q' = (last + 1) * size - 1 := by
    have hlt := (List.getElem?_eq_some_iff.mp hq').1
    rw [List.length_map] at hread
    omega
  rw [hplace, hc] at hq'
  exact hne (Option.some.inj hq').symm

/-- **Reading everything.** If no page but the last ends at a key that two rows share, the walk ends and reads the
rows, each once and in the order of their keys. -/
theorem walk_arranges (hrows : (rows.map ident).Nodup) (hsize : 0 < size) (hclear : ClearCuts size key rows)
    (horders : ∀ k, Arranges key rows (orders k)) :
    ∃ fuel items, walk ident size orders fuel 0 none = some items ∧ Arranges key rows items := by
  obtain ⟨fuel, items, hwalk, hperm, hsorted⟩ := walk_of_clear hrows hsize horders hclear rows.length 0 0 none
    (by omega) (fun order _ => by rw [Nat.zero_mul]; rfl) fun order order' horder horder' => by
      rw [Nat.zero_mul]
      exact horder'.perm.trans horder.perm.symm
  refine ⟨fuel, items, hwalk, ?_, hsorted⟩
  have hall := hperm _ (horders 0)
  rw [Nat.zero_mul] at hall
  exact hall.trans (horders 0).perm

end Pages
