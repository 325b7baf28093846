import Uplift.Pattern.Basic

/-!
# The patterns that come with the library

They cover the chores of moving a script project to newer versions of its stack.
-/

namespace Uplift.Pattern

/-- A matcher for an expression that is known to be well formed. -/
def expression (source : String) : Matcher := (Matcher.regex? source).getD (.literal "")

def varToLet : Pattern where
  id := "var-to-let"
  name := "var to let"
  description := "Replace function-scoped var declarations with let"
  category := .generalLanguage
  matcher := expression "\\bvar\\s+"
  transform := .replace "let "
  examples := [⟨"var x = 1;", "let x = 1;"⟩]

def requireToImport : Pattern where
  id := "require-to-import"
  name := "CommonJS require to ES import"
  description := "Convert default require calls into ES module imports"
  category := .generalLanguage
  matcher := expression "const\\s+(\\w+)\\s*=\\s*require\\((['\"][^'\"]+['\"])\\);?"
  transform := .template "import $1 from $2;"
  risk := .medium
  examples := [⟨"const fs = require('fs');", "import fs from 'fs';"⟩]
  deprecates := some "require()"
  introduces := some "ES module imports"

def anyToUnknown : Pattern where
  id := "any-to-unknown"
  name := "any to unknown"
  description := "Tighten explicit any annotations to unknown"
  category := .typeSystem
  matcher := expression ":\\s*any\\b"
  transform := .replace ": unknown"
  risk := .medium
  examples := [⟨"function f(x: any) \x7b\x7d", "function f(x: unknown) \x7b\x7d"⟩]

def reactDomRender : Pattern where
  id := "react-dom-render"
  name := "ReactDOM.render to createRoot"
  description := "Switch legacy root rendering to the concurrent root API"
  category := .uiFramework
  matcher := expression "ReactDOM\\.render\\(\\s*([^,]+?),\\s*([^)]+?)\\s*\\)"
  transform := .template "ReactDOM.createRoot($2).render($1)"
  risk := .high
  dependencies := ["react-dom@18"]
  examples := [⟨"ReactDOM.render(<App />, container);",
    "ReactDOM.createRoot(container).render(<App />);"⟩]
  deprecates := some "ReactDOM.render"
  introduces := some "ReactDOM.createRoot"

def legacyLifecycles : Pattern where
  id := "legacy-lifecycles"
  name := "Legacy lifecycle methods"
  description := "Prefix legacy class lifecycle methods with UNSAFE_"
  category := .uiFramework
  matcher := expression
    "\\b(componentWillMount|componentWillReceiveProps|componentWillUpdate)\\b"
  transform := .function fun m => "UNSAFE_" ++ m.text
  risk := .medium
  examples := [⟨"componentWillMount() \x7b\x7d", "UNSAFE_componentWillMount() \x7b\x7d"⟩]
  deprecates := some "componentWillMount"
  introduces := some "UNSAFE_ lifecycle aliases"

def findDomNode : Pattern where
  id := "find-dom-node"
  name := "findDOMNode to refs"
  description := "Breaking: replace findDOMNode lookups with ref objects"
  category := .uiFramework
  matcher := expression "ReactDOM\\.findDOMNode\\(\\s*this\\.(\\w+)\\s*\\)"
  transform := .template "this.$1.current"
  risk := .critical
  examples := [⟨"const el = ReactDOM.findDOMNode(this.node);", "const el = this.node.current;"⟩]
  deprecates := some "ReactDOM.findDOMNode"
  introduces := some "ref objects"

def enzymeToTestingLibrary : Pattern where
  id := "enzyme-to-rtl"
  name := "enzyme to Testing Library"
  description := "Swap the enzyme shallow renderer for Testing Library"
  category := .testing
  matcher := .literal "import \x7b shallow \x7d from 'enzyme';"
  transform := .replace "import \x7b render \x7d from '@testing-library/react';"
  risk := .high
  dependencies := ["@testing-library/react"]
  examples := [⟨"import \x7b shallow \x7d from 'enzyme';",
    "import \x7b render \x7d from '@testing-library/react';"⟩]
  deprecates := some "enzyme"
  introduces := some "@testing-library/react"

def webkitBoxShadow : Pattern where
  id := "webkit-box-shadow"
  name := "Unprefixed box-shadow"
  description := "Drop the -webkit- prefix from box-shadow"
  category := .styling
  matcher := expression "-webkit-box-shadow\\s*:"
  transform := .replace "box-shadow:"
  examples := [⟨".a \x7b -webkit-box-shadow: 0 0 1px; \x7d", ".a \x7b box-shadow: 0 0 1px; \x7d"⟩]

def webpackLoaders : Pattern where
  id := "webpack-loaders"
  name := "webpack loaders to rules"
  description := "Rename module.loaders to module.rules"
  category := .build
  matcher := expression "\\bmodule\\s*:\\s*\\\x7b\\s*loaders\\s*:"
  transform := .replace "module: \x7b rules:"
  risk := .medium
  examples := [⟨"module: \x7b loaders: [] \x7d", "module: \x7b rules: [] \x7d"⟩]
  deprecates := some "module.loaders"
  introduces := some "module.rules"

def react17Dependency : Pattern where
  id := "react-17-dependency"
  name := "React dependency bump"
  description := "Pin react to the 18.x line in package manifests"
  category := .dependency
  matcher := expression "\"react\"\\s*:\\s*\"\\^?1[0-7]\\.[0-9.]+\""
  transform := .replace "\"react\": \"^18.2.0\""
  dependencies := ["react@18"]
  examples := [⟨"\x7b\"react\": \"^16.14.0\"\x7d", "\x7b\"react\": \"^18.2.0\"\x7d"⟩]

/-- In the order in which a catalog gets them. -/
def builtin : List Pattern := [
  varToLet, requireToImport, anyToUnknown, reactDomRender, legacyLifecycles, findDomNode,
  enzymeToTestingLibrary, webkitBoxShadow, webpackLoaders, react17Dependency]

end Uplift.Pattern
