import Scaffold.Text.Basic

/-!
# The page

The page with the form: it lists the endpoints with check boxes, and sends the name, the chosen
numbers and the layers.
-/

namespace Scaffold

/-- The head of the page, with its styles. -/
def pageHead : List Text :=
  ["<!DOCTYPE html>",
   "<html lang=\"en\">",
   "<head>",
   "  <meta charset=\"UTF-8\">",
   "  <title>Flutter Feature Generator</title>",
   "  <style>",
   "    body \x7b font-family: sans-serif; max-width: 960px; margin:" ++
     " 2rem auto; color: #222; \x7d",
   "    .tag \x7b margin-top: 1.5rem; font-weight: bold; \x7d",
   "    .endpoint \x7b display: block; padding: 0.25rem 0; \x7d",
   "    .method \x7b display: inline-block; width: 4.5rem; font-family: monospace; \x7d",
   "    .summary \x7b color: #666; margin-left: 0.5rem; \x7d",
   "    fieldset \x7b margin: 1rem 0; \x7d",
   "    #result \x7b margin-top: 1rem; white-space: pre-wrap; \x7d",
   "    .error \x7b color: #b00020; \x7d",
   "  </style>",
   "</head>"]

/-- The fields of the form. -/
def pageFields : List Text :=
  ["<body>",
   "  <h1>Flutter Feature Generator</h1>",
   "  <label>Feature name",
   "    <input id=\"featureName\" placeholder=\"user_management\" pattern=\"[a-z][a-z0-9_]*\">",
   "  </label>",
   "",
   "  <fieldset>",
   "    <legend>Layers</legend>",
   "    <label><input type=\"checkbox\" id=\"data\" checked> Data</label>",
   "    <label><input type=\"checkbox\" id=\"domain\" checked> Domain</label>",
   "    <label><input type=\"checkbox\" id=\"presentation\" checked> Presentation</label>",
   "    <label><input type=\"checkbox\" id=\"bloc\" checked> Bloc</label>",
   "    <label><input type=\"checkbox\" id=\"screens\" checked> Screens</label>",
   "    <label><input type=\"checkbox\" id=\"widgets\" checked> Widgets</label>",
   "  </fieldset>",
   "",
   "  <div id=\"endpoints\">Loading endpoints...</div>",
   "  <button id=\"generate\">Generate</button>",
   "  <div id=\"result\"></div>",
   ""]

/-- The part of the script that lists the endpoints. -/
def pageListing : List Text :=
  ["  <script>",
   "    const checked = (id) => document.getElementById(id).checked;",
   "",
   "    async function loadEndpoints() \x7b",
   "      const response = await fetch('/api/endpoints');",
   "      const endpoints = await response.json();",
   "      const container = document.getElementById('endpoints');",
   "      container.innerHTML = '';",
   "      let currentTag = null;",
   "      for (const ep of endpoints) \x7b",
   "        if (ep.tag !== currentTag) \x7b",
   "          currentTag = ep.tag;",
   "          const header = document.createElement('div');",
   "          header.className = 'tag';",
   "          header.textContent = currentTag;",
   "          container.appendChild(header);",
   "        \x7d",
   "        const label = document.createElement('label');",
   "        label.className = 'endpoint';",
   "        label.innerHTML = `<input type=\"checkbox\" value=\"$\x7bep.index\x7d\"> ` +",
   "          `<span class=\"method\">$\x7bep.method\x7d</span>$\x7bep.path\x7d` +",
   "          `<span class=\"summary\">$\x7bep.summary || ''\x7d</span>`;",
   "        container.appendChild(label);",
   "      \x7d",
   "    \x7d",
   ""]

/-- The part of the script that sends the form. -/
def pageSending : List Text :=
  ["    async function generate() \x7b",
   "      const selectedIndices = [...document.querySelectorAll('#endpoints input:checked')]",
   "        .map((box) => Number(box.value));",
   "      const body = \x7b",
   "        featureName: document.getElementById('featureName').value.trim(),",
   "        selectedIndices,",
   "        layers: \x7b",
   "          data: checked('data'),",
   "          domain: checked('domain'),",
   "          presentation: checked('presentation'),",
   "          presentationComponents: \x7b",
   "            bloc: checked('bloc'),",
   "            screens: checked('screens'),",
   "            widgets: checked('widgets'),",
   "          \x7d,",
   "        \x7d,",
   "      \x7d;",
   "      const response = await fetch('/api/generate', \x7b",
   "        method: 'POST',",
   "        headers: \x7b 'Content-Type': 'application/json' \x7d,",
   "        body: JSON.stringify(body),",
   "      \x7d);"]

/-- The part of the script that shows the answer. -/
def pageAnswer : List Text :=
  ["      const payload = await response.json();",
   "      const result = document.getElementById('result');",
   "      result.className = response.ok ? '' : 'error';",
   "      result.textContent = response.ok",
   "        ? `$\x7bpayload.message\x7d\\n$\x7bpayload.endpointCount\x7d" ++
     " endpoint(s) in $\x7bpayload.location\x7d`",
   "        : payload.error;",
   "    \x7d",
   "",
   "    document.getElementById('generate').addEventListener('click', generate);",
   "    loadEndpoints();",
   "  </script>",
   "</body>",
   "</html>"]

/-- The page with the form. -/
def formPage : Text :=
  Text.lines (pageHead ++ pageFields ++ pageListing ++ pageSending ++ pageAnswer)

end Scaffold
