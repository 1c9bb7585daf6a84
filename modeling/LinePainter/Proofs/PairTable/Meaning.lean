import LinePainter.Proofs.PairTable.Growth

namespace LinePainter

/-! Which pair a request is answered with depends on what was asked for before. The colors
that the pair stands for do not, as long as no request is turned away for want of room. -/

/-- The colors that the answer to a request stands for unless it is turned away: those
asked for, or those of the nearest base pair where there are no other pairs. -/
def PairRequest.meaning? (palette : Palette) (capabilities : Capabilities)
    (settings : ColorSettings) (request : PairRequest) : Option PairColors :=
  match capabilities.tier with
  | .basic => (capabilities.reservedPairs settings)[request.gridPair palette]?
  | .dynamic => some (request.colors palette settings)

namespace PairTable

/-- No request was turned away: there is a free pair, or only base pairs are in use. -/
def HasRoom (table : PairTable) : Prop :=
  table.tier = .basic ∨ table.size < table.capabilities.colorPairs

instance (table : PairTable) : Decidable table.HasRoom :=
  inferInstanceAs (Decidable (_ ∨ _))

variable {palette : Palette} {capabilities : Capabilities} {settings : ColorSettings}
  {table : PairTable} {asked : List PairColors}

theorem Follows.mem_granted (hfollows : table.Follows palette capabilities settings asked)
    (hroom : table.size < capabilities.colorPairs) {colors : PairColors}
    (hasked : colors ∈ asked) : colors ∈ capabilities.granted asked := by
  have hshort : (capabilities.granted asked).length <
      capabilities.colorPairs - capabilities.firstDynamic := by
    rw [hfollows.size_eq] at hroom
    omega
  rw [Capabilities.granted, List.length_take] at hshort
  rw [Capabilities.granted, List.take_of_length_le (by omega)]
  exact List.mem_eraseDups.mpr hasked

theorem Follows.colors?_listAnswer_eq_meaning?
    (hfollows : table.Follows palette capabilities settings asked) (hroom : table.HasRoom)
    {request : PairRequest} (hasked : request.colors palette settings ∈ asked) :
    table.colors? (listAnswer palette capabilities settings (capabilities.granted asked)
      request) = request.meaning? palette capabilities settings := by
  rw [HasRoom, tier, hfollows.capabilities_eq] at hroom
  rw [PairRequest.meaning?]
  cases htier : capabilities.tier with
  | basic =>
      rw [Capabilities.granted_eq_nil_of_basic htier, listAnswer, List.idxOf?_nil, colors?,
        ← Array.getElem?_toList, hfollows.pairs_eq,
        Capabilities.granted_eq_nil_of_basic htier, List.append_nil]
  | dynamic =>
      rw [htier] at hroom
      have hfree := hroom.resolve_left Tier.noConfusion
      exact hfollows.colors?_listAnswer (hfollows.mem_granted hfree hasked)

theorem requestAll_eq_serve (table : PairTable) (inks : List (ColorId × ColorId)) :
    table.requestAll inks =
      table.serve (inks.map fun ink => .indexed ink.1 ink.2) := by
  induction inks generalizing table with
  | nil => rfl
  | cons ink rest ih =>
      simp only [requestAll, List.map_cons, serve, ih]
      rfl

/-! A table and what becomes of it before the next reload. -/

structure LeadsTo (earlier later : PairTable) : Prop where
  palette_eq : later.palette = earlier.palette
  capabilities_eq : later.capabilities = earlier.capabilities
  settings_eq : later.settings = earlier.settings
  grows : earlier.Extends later

theorem InUse.leadsTo_serve (hinUse : table.InUse) (requests : List PairRequest) :
    table.LeadsTo (table.serve requests).2 := by
  obtain ⟨asked, hfollows⟩ := hinUse
  obtain ⟨hlater, -⟩ := hfollows.serve requests
  exact ⟨hlater.palette_eq, hlater.capabilities_eq, hlater.settings_eq,
    hfollows.pairs_prefix_pairs hlater⟩

theorem LeadsTo.trans {first second third : PairTable} (hsecond : first.LeadsTo second)
    (hthird : second.LeadsTo third) : first.LeadsTo third where
  palette_eq := hthird.palette_eq.trans hsecond.palette_eq
  capabilities_eq := hthird.capabilities_eq.trans hsecond.capabilities_eq
  settings_eq := hthird.settings_eq.trans hsecond.settings_eq
  grows := hsecond.grows.trans hthird.grows

theorem LeadsTo.hasRoom_iff {later : PairTable} (hleads : table.LeadsTo later) :
    later.HasRoom ↔ table.tier = .basic ∨ later.size < table.capabilities.colorPairs := by
  rw [HasRoom, tier, hleads.capabilities_eq, tier]

theorem LeadsTo.hasRoom {later : PairTable} (hleads : table.LeadsTo later)
    (hroom : later.HasRoom) : table.HasRoom :=
  (hleads.hasRoom_iff.mp hroom).imp_right (Nat.lt_of_le_of_lt hleads.grows.size_le)

/-- With room for them all, answers stand for the same colors whatever was asked for
before. -/
theorem InUse.colors?_requestAll (hinUse : table.InUse) {inks : List (ColorId × ColorId)}
    (hroom : (table.requestAll inks).2.HasRoom) :
    (table.requestAll inks).1.map (table.requestAll inks).2.colors? =
      inks.map fun ink => (PairRequest.indexed ink.1 ink.2).meaning? table.palette
        table.capabilities table.settings := by
  obtain ⟨asked, hfollows⟩ := hinUse
  rw [requestAll_eq_serve] at hroom ⊢
  obtain ⟨hlater, hanswers⟩ := hfollows.serve (inks.map fun ink => .indexed ink.1 ink.2)
  rw [hanswers, List.map_map, List.map_map]
  apply List.map_congr_left
  intro ink hink
  apply hlater.colors?_listAnswer_eq_meaning? hroom
  refine List.mem_append_right _ (List.mem_map_of_mem ?_)
  exact List.mem_map_of_mem (f := fun ink => PairRequest.indexed ink.1 ink.2) hink

/-! Asking for the same again changes nothing, also when some of it was turned away the
first time. -/

theorem Follows.answer_of_mem (hfollows : table.Follows palette capabilities settings asked)
    {request : PairRequest} (hasked : request.colors palette settings ∈ asked) :
    table.answer request =
      (listAnswer palette capabilities settings (capabilities.granted asked) request,
        table) := by
  rcases hfollows.answer_cases request with
    ⟨place, hplace, hanswer⟩ | ⟨hnew, hfree, -⟩ | ⟨hnew, -, hanswer⟩
  · rw [hanswer, listAnswer, hplace]
  · have hroom : table.size < capabilities.colorPairs := by
      rw [hfollows.size_eq]
      omega
    exact absurd (hfollows.mem_granted hroom hasked) hnew
  · rw [hanswer, listAnswer, List.idxOf?_eq_none_iff.mpr hnew]

theorem Follows.serve_of_mem (hfollows : table.Follows palette capabilities settings asked)
    {requests : List PairRequest}
    (hasked : ∀ request ∈ requests, request.colors palette settings ∈ asked) :
    table.serve requests =
      (requests.map
        (listAnswer palette capabilities settings (capabilities.granted asked)), table) := by
  induction requests with
  | nil => rfl
  | cons request rest ih =>
      obtain ⟨hfirst, hrest⟩ := List.forall_mem_cons.mp hasked
      simp only [PairTable.serve, hfollows.answer_of_mem hfirst, ih hrest, List.map_cons]

theorem InUse.serve_again (hinUse : table.InUse) (requests : List PairRequest) :
    (table.serve requests).2.serve requests = table.serve requests := by
  obtain ⟨asked, hfollows⟩ := hinUse
  obtain ⟨hlater, hanswers⟩ := hfollows.serve requests
  rw [hlater.serve_of_mem fun request hrequest =>
    List.mem_append_right _ (List.mem_map_of_mem hrequest), ← hanswers]

theorem InUse.requestAll_again (hinUse : table.InUse) (inks : List (ColorId × ColorId)) :
    (table.requestAll inks).2.requestAll inks = table.requestAll inks := by
  rw [requestAll_eq_serve, requestAll_eq_serve]
  exact hinUse.serve_again _

/-! The size of a table does not depend on the order of requests, only on what was asked
for, and no request adds more than one pair. -/

theorem length_granted_of_mem_iff {left right : List PairColors}
    (hsame : ∀ colors, colors ∈ left ↔ colors ∈ right) :
    (capabilities.granted left).length = (capabilities.granted right).length := by
  have hperm : left.eraseDups.Perm right.eraseDups := by
    rw [List.perm_ext_iff_of_nodup (eraseDups_nodup left) (eraseDups_nodup right)]
    intro colors
    rw [List.mem_eraseDups, List.mem_eraseDups, hsame]
  rw [Capabilities.granted, Capabilities.granted, List.length_take, List.length_take,
    hperm.length_eq]

theorem InUse.size_serve_comm (hinUse : table.InUse) (first second : List PairRequest) :
    ((table.serve first).2.serve second).2.size =
      ((table.serve second).2.serve first).2.size := by
  obtain ⟨asked, hfollows⟩ := hinUse
  obtain ⟨hforth, -⟩ := hfollows.serve (first ++ second)
  obtain ⟨hback, -⟩ := hfollows.serve (second ++ first)
  rw [serve_append] at hforth hback
  rw [hforth.size_eq, hback.size_eq]
  congr 1
  apply length_granted_of_mem_iff
  intro colors
  simp only [List.map_append, List.mem_append]
  tauto

theorem InUse.size_answer_le (hinUse : table.InUse) (request : PairRequest) :
    (table.answer request).2.size ≤ table.size + 1 := by
  obtain ⟨asked, hfollows⟩ := hinUse
  rcases hfollows.answer_cases request with
    ⟨_, -, hanswer⟩ | ⟨-, -, hanswer⟩ | ⟨-, -, hanswer⟩
  · rw [hanswer]
    exact Nat.le_succ _
  · rw [hanswer]
    exact Nat.le_of_eq (Array.size_push ..)
  · rw [hanswer]
    exact Nat.le_succ _

theorem InUse.size_serve_le (hinUse : table.InUse) (requests : List PairRequest) :
    (table.serve requests).2.size ≤ table.size + requests.length := by
  induction requests generalizing table with
  | nil => exact Nat.le_refl _
  | cons request rest ih =>
      calc (table.serve (request :: rest)).2.size
          _ ≤ (table.answer request).2.size + rest.length := ih (hinUse.answer request).inUse
          _ ≤ table.size + 1 + rest.length :=
            Nat.add_le_add_right (hinUse.size_answer_le request) _
          _ = table.size + (request :: rest).length := by
            rw [List.length_cons, Nat.add_assoc, Nat.add_comm 1]

end PairTable

end LinePainter
