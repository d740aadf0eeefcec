import Stylesheet.Fault
import Stylesheet.Value.Equality

/-!
# The selector model

Three kinds of nodes describe how a selector matches: any node, an element by its name, or a
selector narrowed by a condition. `Value.selectorModel` reads such a description.
-/

namespace Stylesheet

/-- How a selector matches. -/
inductive SelectorModel where
  | anyNode
  | element (name : Value)
  | conditional (selector condition : Value)

/-- The class of a description. -/
def SelectorModel.selectorClass : SelectorModel → SelectorClass
  | anyNode => .anyNode
  | element _ => .elementNode
  | conditional _ _ => .conditional

/-- The description that a value is. -/
def Value.selectorModel (v : Value) : Except Fault SelectorModel :=
  match v.contents with
  | .node .nodeSelector => .ok .anyNode
  | .node (.elementSelector localName) => .ok (.element localName)
  | .node (.conditionalSelector base condition) => .ok (.conditional base condition)
  | _ => .error (.missingField v (.other "selector_type"))

end Stylesheet
