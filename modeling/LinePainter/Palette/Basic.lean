import LinePainter.Color.Indexed
import LinePainter.Color.Lab

namespace LinePainter

/-! A palette lists the colors a terminal can show, in an order that breaks ties.
It is never empty and lists no color twice. -/

structure PaletteRow where
  id : ColorId
  name : String
  rgb : Rgb

structure PaletteEntry extends PaletteRow where
  lab : Lab

namespace PaletteRow

def measure (row : PaletteRow) : PaletteEntry :=
  { row with lab := Lab.ofRgb row.rgb }

@[simp] theorem id_measure (row : PaletteRow) : row.measure.id = row.id := rfl

end PaletteRow

inductive PaletteError where
  | empty
  | duplicateId (id : ColorId)
  deriving DecidableEq

namespace PaletteError

def message : PaletteError → String
  | empty => "palette table is empty"
  | duplicateId id => s!"palette table lists color id {id.val} more than once"

end PaletteError

/-- The scan behind nearest-color search: the first element with the least key,
where `closer` compares keys strictly. -/
def firstLeast? {element key : Type} (closer : key → key → Bool) (keyOf : element → key)
    (elements : List element) : Option element :=
  (elements.foldl
    (fun best candidate =>
      let candidateKey := keyOf candidate
      match best with
      | some (_, leastKey) =>
          if closer candidateKey leastKey then some (candidate, candidateKey) else best
      | none => some (candidate, candidateKey))
    none).map Prod.fst

/-- The entry closest to `target`. The entry's own chroma weights the distance. -/
def nearestEntry? (entries : List PaletteEntry) (target : Lab) : Option PaletteEntry :=
  firstLeast? (fun left right : Float => left < right)
    (fun entry => entry.lab.distance target) entries

/-- The base color closest to `id`: itself if it is one, white if the table lists
none. A color the table does not list is measured by its place in the layout. -/
def reduceToBase (entries : List PaletteEntry) (id : ColorId) : ColorId :=
  if id.IsBase then id
  else
    let target :=
      match entries.find? (·.id = id) with
      | some entry => entry.lab
      | none => Lab.ofRgb id.toRgb
    match nearestEntry? (entries.filter (·.id.IsBase)) target with
    | some entry => entry.id
    | none => ColorId.white

structure Palette where
  entries : List PaletteEntry
  nonempty : entries ≠ []
  unique : (entries.map (·.id)).Nodup
  reduction : Vector ColorId 256
  reduction_eq : reduction = Vector.ofFn (reduceToBase entries)

namespace Palette

def ofEntries (entries : List PaletteEntry) (nonempty : entries ≠ [])
    (unique : (entries.map (·.id)).Nodup) : Palette where
  entries
  nonempty
  unique
  reduction := Vector.ofFn (reduceToBase entries)
  reduction_eq := rfl

/-- The first id that repeats an earlier one, the ids in `seen` being earlier. -/
def firstRepeated? (seen : List ColorId) : List ColorId → Option ColorId
  | [] => none
  | id :: rest => if id ∈ seen then some id else firstRepeated? (id :: seen) rest

theorem nodup_of_firstRepeated?_eq_none {seen ids : List ColorId}
    (hnone : firstRepeated? seen ids = none) :
    ids.Nodup ∧ ∀ id ∈ ids, id ∉ seen := by
  induction ids generalizing seen with
  | nil => simp
  | cons id rest ih =>
      by_cases hseen : id ∈ seen
      · simp [firstRepeated?, hseen] at hnone
      · simp only [firstRepeated?, hseen, if_false] at hnone
        obtain ⟨hnodup, hfresh⟩ := ih hnone
        refine ⟨List.nodup_cons.mpr ⟨fun hmem => ?_, hnodup⟩, ?_⟩
        · exact hfresh id hmem (List.mem_cons_self ..)
        · intro other hother
          rcases List.mem_cons.mp hother with rfl | hrest
          · exact hseen
          · exact fun hmem => hfresh other hrest (List.mem_cons_of_mem _ hmem)

def ofRows (rows : List PaletteRow) : Except PaletteError Palette :=
  match hrepeated : firstRepeated? [] (rows.map (·.id)) with
  | some id => .error (.duplicateId id)
  | none =>
      if hempty : rows = [] then .error .empty
      else
        .ok (ofEntries (rows.map PaletteRow.measure) (by simpa using hempty)
          (by
            rw [List.map_map]
            exact (nodup_of_firstRepeated?_eq_none hrepeated).1))

def size (palette : Palette) : Nat := palette.entries.length

def get? (palette : Palette) (id : ColorId) : Option PaletteEntry :=
  palette.entries.find? (·.id = id)

def byName? (palette : Palette) (name : String) : Option PaletteEntry :=
  palette.entries.find? (·.name = name)

def matchColor (palette : Palette) (color : Rgb) : ColorId :=
  match nearestEntry? palette.entries (Lab.ofRgb color) with
  | some entry => entry.id
  | none => (palette.entries.head palette.nonempty).id

def nearestBase (palette : Palette) (id : ColorId) : ColorId :=
  palette.reduction[id]

end Palette

end LinePainter
