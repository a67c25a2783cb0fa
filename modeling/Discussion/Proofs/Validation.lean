import Discussion.Proofs.JsonExact
import Discussion.Proofs.Law
import Discussion.Proofs.Pseudonym

namespace Discussion

/-- What a component asks of the comments of an area. -/
structure Standard where
  content : SectionKey → String → TextFormat → Prop
  pseudonym : SectionKey → String → Prop
  customData : SectionKey → Json.Fields → Prop

namespace Forum

variable {f g : Forum} {d : DeclaredArea} {standard : Standard} {p : Prepared} {user : UserId}

theorem Serves.handler_eq {sec : Section} {cap : Capability} (h : f.Serves user sec cap)
    (hd : f.declared? d.component d.area = some d) (hcomponent : sec.key.component = d.component)
    (harea : sec.key.area = d.area) : sec.handler = d.handler := by
  obtain ⟨d', hd', -, hhandler⟩ := h.declared
  rw [hcomponent, harea, hd] at hd'
  rw [hhandler, Option.some.inj hd']

end Forum

/-- A component that asks for contents, keeps one pseudonym to itself, and takes no more than two
fields of custom data. -/
def Handler.careful : Handler where
  item := Handler.wiki.item
  checkContent _ content _ _ :=
    if Text.isBlankText content then [("content", "required")] else []
  checkPseudonym _ pseudonym _ := if pseudonym = "Owl" then [("pseudonym", "taken")] else []
  checkCustomData _ _ fields _ := if fields.length ≤ 2 then [] else [("custom_data", "too much")]

def Standard.careful : Standard where
  content _ content _ := Text.isBlankText content = false
  pseudonym _ pseudonym := pseudonym ≠ "Owl"
  customData _ fields := fields.length ≤ 2

def DeclaredArea.careful : DeclaredArea :=
  ⟨"wiki", "talk", { allowPseudonym := true }, .careful⟩

def Forum.careful : Forum where
  site := (Forum.wiki .wiki).site
  areas := [.careful]

end Discussion
