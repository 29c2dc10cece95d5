import Dnlab.Lib.Dict

/-!
# Element trees

XML as a tree of elements with attributes, and the searches in it: of an element for a child
(`find`) or a descendant (`findDeep`) with a tag, and for all elements with a tag in the order of
the document (`iter`). Texts between the elements are left out.
-/

/-- An element: its tag, its attributes and its children. -/
inductive Xml
  | element (tag : String) (attrs : Dict String String) (children : List Xml)

namespace Xml

/-- The tag of an element. -/
def tag : Xml → String
  | element tag _ _ => tag

/-- The attributes of an element. -/
def attrs : Xml → Dict String String
  | element _ attrs _ => attrs

/-- The children of an element. -/
def children : Xml → List Xml
  | element _ _ children => children

/-- `element.get(name)`. -/
def get? (x : Xml) (name : String) : Option String := x.attrs.get? name

/-- `element.get(name, value)`. -/
def getD (x : Xml) (name value : String) : String := (x.get? name).getD value

/-- `element.find(tag)`. -/
def find (x : Xml) (tag : String) : Option Xml := x.children.find? fun c => c.tag = tag

mutual

/-- `element.iter(name)`. -/
def iter (name : String) : Xml → List Xml
  | element tag attrs children =>
    if tag = name then element tag attrs children :: iters name children else iters name children

/-- The elements with a tag in a list of elements and below them. -/
def iters (name : String) : List Xml → List Xml
  | [] => []
  | x :: l => iter name x ++ iters name l

end

/-- `element.find(".//" + name)`. -/
def findDeep (x : Xml) (name : String) : Option Xml := (iters name x.children).head?

@[simp] theorem tag_element (tag : String) (attrs : Dict String String) (children : List Xml) :
    (element tag attrs children).tag = tag := rfl

@[simp] theorem children_element (tag : String) (attrs : Dict String String)
    (children : List Xml) : (element tag attrs children).children = children := rfl

@[simp] theorem get?_element (tag : String) (attrs : Dict String String) (children : List Xml)
    (name : String) : (element tag attrs children).get? name = attrs.get? name := rfl

variable {name : String}

theorem iter_of_tag {x : Xml} (h : x.tag = name) : iter name x = x :: iters name x.children := by
  obtain ⟨tag, attrs, children⟩ := x
  exact if_pos h

theorem iter_of_tag_ne {x : Xml} (h : x.tag ≠ name) : iter name x = iters name x.children := by
  obtain ⟨tag, attrs, children⟩ := x
  exact if_neg h

/-- Elements with a tag that have none of them below are all that is found among them. -/
theorem iters_eq_self {l : List Xml} (h : ∀ x ∈ l, x.tag = name ∧ iters name x.children = []) :
    iters name l = l := by
  induction l with
  | nil => rfl
  | cons x l ih =>
    obtain ⟨htag, hbelow⟩ := h x List.mem_cons_self
    rw [iters, iter_of_tag htag, hbelow, ih fun y hy => h y (List.mem_cons_of_mem _ hy)]
    rfl

end Xml
